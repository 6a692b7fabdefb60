import Lhatove.Sound.SoundData

/-!
# Ranges of sound data

Sizes of sound data, and the ranges of `copyFrom` and `slice`, against what they should be.

- `SizeRight`, `CopiesRight`, `SlicesRight`: what is to hold after a call that is accepted;
- `LoadFits`, `DecoderFits`, `CopyFits`, `SliceFits`: when it does;
- `ranges_safe_iff`: all of them.
-/

namespace Lhatove.Sound.SoundData

open List
open Int (eq_ofNat_of_zero_le toNat_natCast)
open Nat (add_mul add_zero cast_add cast_mul le_div_iff_mul_le)

variable {F : Type}

/-! ## What is to hold -/

/-- Data as they are made. -/
structure Valid (d : SoundData) : Prop where
  bitDepth : d.bitDepth = 8 ∨ d.bitDepth = 16
  channels : 0 < d.channels ∧ d.channels < 2 ^ 31
  size : d.data.length < 2 ^ 63

/-- The bytes of one sample of all channels. -/
def frame (d : SoundData) : Nat := d.channels.toNat * width d.bitDepth

/-- A size without wraparound. -/
def SizeRight (size : SoundData → Int) : Call SoundData → Prop
  | .undefined => False
  | .threw _ => True
  | .returned d => d.data.length = size d

/-- The bytes that are copied: the samples of all channels, converted where they have to be. -/
def copied (format : SampleFormat F) (dst src : SoundData) (srcStart count : Int) : List Byte :=
  if dst.bitDepth = src.bitDepth then
    (src.data.drop (srcStart.toNat * src.frame)).take (count.toNat * src.frame)
  else
    (List.range (count * dst.channels).toNat).flatMap fun i =>
      format.encode dst.bitDepth
        (format.decode src.bitDepth (src.sampleBytes ((srcStart * dst.channels).toNat + i)))

/-- The range of a call lies inside of data. -/
def Inside (d : SoundData) (start count : Int) : Prop :=
  0 ≤ start + count ∧ (start + count) * d.frame ≤ d.data.length

/-- Both ranges are inside, the one of the destination has the samples of the other, and nothing
else has changed. -/
def CopiesRight (format : SampleFormat F) (dst src : SoundData) (srcStart count dstStart : Int) :
    Call SoundData → Prop
  | .undefined => False
  | .threw _ => True
  | .returned d =>
    (0 ≤ srcStart ∧ src.Inside srcStart count) ∧ (0 ≤ dstStart ∧ dst.Inside dstStart count) ∧
      d = { dst with
        data := overwrite dst.data (dstStart.toNat * dst.frame)
          (copied format dst src srcStart count) }

/-- A length below 0 is up to the end. -/
def sliceLength (d : SoundData) (start length : Int) : Int :=
  if length < 0 then d.getSampleCount - start else length

/-- The range is inside, and its samples are the slice. -/
def SlicesRight (d : SoundData) (start length : Int) : Call SoundData → Prop
  | .undefined => False
  | .threw _ => True
  | .returned part =>
    0 ≤ start ∧ 0 < d.sliceLength start length ∧ d.Inside start (d.sliceLength start length) ∧
      part = { d with
        data := (d.data.drop (start.toNat * d.frame)).take
          ((d.sliceLength start length).toNat * d.frame) }

/-! ## When it does -/

/-- The size of a shape that is accepted is an `int`. -/
def LoadFits (samples sampleRate bitDepth channels : Int) : Prop :=
  0 < samples → 0 < sampleRate → bitDepth = 8 ∨ bitDepth = 16 → 0 < channels →
    samples * (bitDepth / 8) * channels < 2 ^ 31

/-- What is decoded are whole samples of all channels, and fewer than an `int` has numbers. -/
def DecoderFits (memory : Memory) (decoder : Decoder) : Prop :=
  decoder.bitDepth = 8 ∨ decoder.bitDepth = 16 →
    decodeLoop memory decoder.chunks [] = .returned decoder.chunks.flatten →
      decoder.channels.toNat * width decoder.bitDepth ∣ decoder.chunks.flatten.length ∧
        decoder.chunks.flatten.length / (decoder.channels.toNat * width decoder.bitDepth) < 2 ^ 31

/-- As far as a call is not refused before: the ends of its ranges are numbers of an `int`; the
count is not below 0 where the bit depths are the same; where they are not, the number of samples
of all channels is an `int`, and so is each index. -/
def CopyFits (dst src : SoundData) (srcStart count dstStart : Int) : Prop :=
  dst.channels = src.channels → 0 ≤ dstStart →
    IsInt (dstStart + count) ∧ (dst.Inside dstStart count → 0 ≤ srcStart →
      IsInt (srcStart + count) ∧ (src.Inside srcStart count →
        (dst.bitDepth = src.bitDepth → 0 ≤ count) ∧
        (dst.bitDepth ≠ src.bitDepth → IsInt (count * dst.channels) ∧
          (0 < count → (srcStart + count) * dst.channels ≤ 2 ^ 31 ∧
            (dstStart + count) * dst.channels ≤ 2 ^ 31))))

/-- As far as a call is not refused before: its length and its end are numbers of an `int`, and so
are its first bit and its size. -/
def SliceFits (d : SoundData) (start length : Int) : Prop :=
  length ≠ 0 →
    (length < 0 → IsInt (d.getSampleCount - start)) ∧
    (0 ≤ start → IsInt (start + d.sliceLength start length) ∧
      (start + d.sliceLength start length ≤ d.getSampleCount →
        start * d.channels * d.bitDepth < 2 ^ 31 ∧
        (0 < d.sliceLength start length → 0 < d.sampleRate →
          d.sliceLength start length * (d.bitDepth / 8) * d.channels < 2 ^ 31)))

/-! ## Constructors -/

theorem int_of_isInt {x : Int} (h : IsInt x) : int x = .returned x := if_pos h

theorem int_of_not {x : Int} (h : ¬ IsInt x) : int x = .undefined := if_neg h

section

variable {α : Type} {Right : Call α → Prop} {P Q : Prop}

/-- A check that throws is one that need not be passed. -/
theorem check_iff {bad : Prop} [Decidable bad] {what : String} {call : Call α}
    (hthrew : Right (.threw what)) (hbad : ¬ bad ↔ P) (h : P → (Right call ↔ Q)) :
    Right (if bad then .threw what else call) ↔ (P → Q) := by
  split
  next hfails => exact iff_of_true hthrew fun hP => absurd hfails (hbad.mpr hP)
  next hpasses => rw [h (hbad.mp hpasses), imp_iff_right (hbad.mp hpasses)]

theorem int_iff {x : Int} {f : Int → Call α} (hundefined : ¬ Right .undefined)
    (h : IsInt x → (Right (f x) ↔ Q)) : Right ((int x).bind f) ↔ IsInt x ∧ Q := by
  by_cases hint : IsInt x
  · rw [int_of_isInt hint, Call.returned_bind, h hint, and_iff_right hint]
  · rw [int_of_not hint]
    exact iff_of_false hundefined fun hboth => hint hboth.1

end

section

variable {memory : Memory} {samples sampleRate bitDepth channels : Int}
  {newData : Option (List Byte)}

/-- The bytes of a load. -/
def loaded (samples sampleRate bitDepth channels : Int) : Option (List Byte) → Call SoundData
  | none => .returned ⟨List.replicate (samples * (bitDepth / 8) * channels).toNat
      (if bitDepth = 8 then 128 else 0), sampleRate, bitDepth, channels⟩
  | some bytes =>
    if (samples * (bitDepth / 8) * channels).toNat ≤ bytes.length then
      .returned ⟨bytes.take (samples * (bitDepth / 8) * channels).toNat, sampleRate, bitDepth,
        channels⟩
    else .undefined

theorem load_eq (hsamples : 0 < samples) (hrate : 0 < sampleRate)
    (hdepth : bitDepth = 8 ∨ bitDepth = 16) (hchannels : 0 < channels) :
    load memory samples sampleRate bitDepth channels newData =
      if 2 ^ 31 ≤ samples * (bitDepth / 8) * channels then .undefined
      else if memory.canAllocate (samples * (bitDepth / 8) * channels).toNat = false then
        .threw "Not enough memory."
      else loaded samples sampleRate bitDepth channels newData := by
  have hwidth : 0 < bitDepth / 8 := by
    rcases hdepth with rfl | rfl <;> decide
  have hproduct : 0 < samples * (bitDepth / 8) := mul_pos hsamples hwidth
  have hle : samples * (bitDepth / 8) ≤ samples * (bitDepth / 8) * channels :=
    le_mul_of_one_le_right hproduct.le hchannels
  unfold load
  rw [if_neg (by omega), if_neg (by omega), if_neg (by omega), if_neg (by omega)]
  by_cases hbig : 2 ^ 31 ≤ samples * (bitDepth / 8) * channels
  · rw [if_pos hbig]
    by_cases hint : IsInt (samples * (bitDepth / 8))
    · rw [int_of_isInt hint, Call.returned_bind, int_of_not (fun h => not_lt.mpr hbig h.2)]
      rfl
    · rw [int_of_not hint]
      rfl
  · rw [if_neg hbig, int_of_isInt ⟨by omega, by omega⟩, Call.returned_bind,
      int_of_isInt ⟨by omega, by omega⟩, Call.returned_bind, ← mul_assoc, if_neg (by omega)]
    cases newData <;> rfl

theorem load_threw (h : ¬ (0 < samples ∧ 0 < sampleRate ∧ (bitDepth = 8 ∨ bitDepth = 16) ∧
    0 < channels)) :
    ∃ what, load memory samples sampleRate bitDepth channels newData = .threw what := by
  unfold load
  split
  · exact ⟨_, rfl⟩
  rename_i hsamples
  split
  · exact ⟨_, rfl⟩
  rename_i hrate
  split
  · exact ⟨_, rfl⟩
  by_cases hchannels : channels ≤ 0
  · rw [if_pos hchannels]
    exact ⟨_, rfl⟩
  · exact absurd ⟨not_le.mp hsamples, not_le.mp hrate, by tauto, not_le.mp hchannels⟩ h

theorem load_sizeRight_iff :
    SizeRight (fun _ => samples * (bitDepth / 8) * channels)
        (load memory samples sampleRate bitDepth channels none) ↔
      LoadFits samples sampleRate bitDepth channels := by
  by_cases haccepted : 0 < samples ∧ 0 < sampleRate ∧ (bitDepth = 8 ∨ bitDepth = 16) ∧ 0 < channels
  · obtain ⟨hsamples, hrate, hdepth, hchannels⟩ := haccepted
    have hfits : LoadFits samples sampleRate bitDepth channels ↔
        samples * (bitDepth / 8) * channels < 2 ^ 31 :=
      ⟨fun h => h hsamples hrate hdepth hchannels, fun h _ _ _ _ => h⟩
    have hwidth : 0 < bitDepth / 8 := by
      rcases hdepth with rfl | rfl <;> decide
    have hsize := mul_pos (mul_pos hsamples hwidth) hchannels
    rw [load_eq hsamples hrate hdepth hchannels, hfits]
    split
    next hbig =>
      exact ⟨fun h => h.elim, fun h => absurd hbig (not_le.mpr h)⟩
    next hbig =>
      refine ⟨fun _ => not_le.mp hbig, fun _ => ?_⟩
      split
      · trivial
      · change ((replicate _ _).length : Int) = samples * (bitDepth / 8) * channels
        rw [length_replicate]
        omega
  · obtain ⟨what, hthrew⟩ := @load_threw memory samples sampleRate bitDepth channels none haccepted
    rw [hthrew]
    refine ⟨fun _ => ?_, fun _ => trivial⟩
    intro hsamples hrate hdepth hchannels
    exact absurd ⟨hsamples, hrate, hdepth, hchannels⟩ haccepted

end

section

variable {memory : Memory} {decoder : Decoder}

/-- What is decoded is put together, if there is memory for it. -/
theorem decodeLoop_cases (chunks : List (List Byte)) (data : List Byte) :
    (∃ what, decodeLoop memory chunks data = .threw what) ∨
      decodeLoop memory chunks data = .returned (data ++ chunks.flatten) := by
  induction chunks generalizing data with
  | nil =>
    right
    rw [flatten_nil, append_nil]
    rfl
  | cons chunk chunks ih =>
    unfold decodeLoop
    by_cases hmemory : memory.canAllocate (data.length + chunk.length) = false
    · left
      rw [if_pos hmemory]
      exact ⟨_, rfl⟩
    · rw [if_neg hmemory, flatten_cons, ← append_assoc]
      exact ih (data ++ chunk)

theorem bmod_le_self (n : Nat) : (n : Int).bmod (2 ^ 32) ≤ n := by
  rw [Int.bmod_def]
  split <;> omega

theorem bmod_eq_self_iff (n : Nat) : (n : Int).bmod (2 ^ 32) = n ↔ n < 2 ^ 31 := by
  rw [Int.bmod_def]
  split <;> omega

theorem width_eq {bitDepth : Int} (h : bitDepth = 8 ∨ bitDepth = 16) :
    (width bitDepth : Int) = bitDepth / 8 ∧ bitDepth = 8 * width bitDepth ∧
      0 < width bitDepth ∧ width bitDepth ≤ 2 := by
  rcases h with rfl | rfl <;> decide

theorem ofDecoder_sizeRight_iff (hchannels : 0 < decoder.channels) :
    SizeRight (fun d => d.getSampleCount * (d.bitDepth / 8) * d.channels)
        (ofDecoder memory decoder) ↔
      DecoderFits memory decoder := by
  unfold ofDecoder DecoderFits
  by_cases hdepth : decoder.bitDepth ≠ 8 ∧ decoder.bitDepth ≠ 16
  · rw [if_pos hdepth]
    refine ⟨fun _ hor => ?_, fun _ => trivial⟩
    tauto
  have hor : decoder.bitDepth = 8 ∨ decoder.bitDepth = 16 := by tauto
  obtain ⟨hwidth, -, hpos, -⟩ := width_eq hor
  rw [if_neg hdepth]
  rcases @decodeLoop_cases memory decoder.chunks [] with ⟨what, hthrew⟩ | hdecoded
  · rw [hthrew]
    refine ⟨fun _ _ h => ?_, fun _ => trivial⟩
    cases h
  · rw [nil_append] at hdecoded
    rw [hdecoded, Call.returned_bind]
    unfold SizeRight getSampleCount
    dsimp only
    obtain ⟨ch, hch⟩ := eq_ofNat_of_zero_le hchannels.le
    rw [← hwidth, hch, toNat_natCast, Nat.div_div_eq_div_mul]
    generalize decoder.chunks.flatten.length = length
    have hframe : 0 < ch * width decoder.bitDepth := Nat.mul_pos (by omega) hpos
    have hproduct : ∀ n : Int, n * width decoder.bitDepth * ch =
        n * (ch * width decoder.bitDepth : Nat) := by
      intro n
      push_cast
      ring
    rw [hproduct]
    generalize ch * width decoder.bitDepth = frame at hframe
    constructor
    · intro hsize _ _
      have hmod : (length : Int) % frame = 0 := by
        rw [hsize]
        exact Int.mul_emod_left _ _
      have hdvd : frame ∣ length := by
        rw [← Int.natCast_dvd_natCast]
        exact Int.dvd_of_emod_eq_zero hmod
      refine ⟨hdvd, (bmod_eq_self_iff _).mp ?_⟩
      obtain ⟨q, rfl⟩ := hdvd
      rw [Nat.mul_div_cancel_left q hframe] at hsize ⊢
      rw [cast_mul, mul_comm] at hsize
      exact (Int.eq_of_mul_eq_mul_right (by omega) hsize).symm
    · intro hfits
      obtain ⟨hdvd, hcount⟩ := hfits hor rfl
      rw [(bmod_eq_self_iff _).mpr hcount, ← cast_mul, Nat.div_mul_cancel hdvd]

end

/-! ## Copies -/

section

variable {format : SampleFormat F} {dst src d : SoundData} {srcStart count dstStart : Int}

theorem Valid.bytesPerSample (h : d.Valid) :
    d.channels.toNat * d.bitDepth.toNat / 8 = d.frame := by
  unfold frame
  rcases h.bitDepth with hdepth | hdepth
  · rw [hdepth]
    change d.channels.toNat * 8 / 8 = d.channels.toNat * 1
    omega
  · rw [hdepth]
    change d.channels.toNat * 16 / 8 = d.channels.toNat * 2
    omega

theorem Valid.frame_bounds (h : d.Valid) : 0 < d.frame ∧ d.frame ≤ 2 ^ 32 := by
  obtain ⟨-, -, hpos, hle⟩ := width_eq h.bitDepth
  obtain ⟨hchannels, hlt⟩ := h.channels
  constructor
  · exact Nat.mul_pos (by omega) hpos
  · calc d.frame ≤ 2 ^ 31 * 2 := Nat.mul_le_mul (by omega) hle
      _ = 2 ^ 32 := by norm_num

theorem toSize_mul (h : d.Valid) {x : Int} (hx : IsInt x) :
    (0 ≤ x → toSize x * d.frame % 2 ^ 64 = x.toNat * d.frame) ∧
      (x < 0 → 2 ^ 63 ≤ toSize x * d.frame % 2 ^ 64) := by
  obtain ⟨hpos, hle⟩ := h.frame_bounds
  constructor
  · intro hnonneg
    obtain ⟨n, rfl⟩ := eq_ofNat_of_zero_le hnonneg
    have hn : n < 2 ^ 31 := by
      have hlt := hx.2
      omega
    have hsize : toSize (n : Int) = n := by
      unfold toSize
      omega
    have hproduct : n * d.frame < 2 ^ 31 * 2 ^ 32 :=
      Nat.mul_lt_mul_of_lt_of_le hn hle (by norm_num)
    rw [hsize, toNat_natCast, Nat.mod_eq_of_lt (by omega)]
  · intro hneg
    obtain ⟨y, hy⟩ := eq_ofNat_of_zero_le (show 0 ≤ -x by omega)
    have hybounds : 0 < y ∧ y ≤ 2 ^ 31 := by
      have hge := hx.1
      omega
    have hsize : toSize x = 2 ^ 64 - y := by
      unfold toSize
      omega
    have hproduct : y * d.frame ≤ 2 ^ 31 * 2 ^ 32 := Nat.mul_le_mul hybounds.2 hle
    have hproductPos : 0 < y * d.frame := Nat.mul_pos hybounds.1 hpos
    -- the product is that much below a multiple of 2 ^ 64
    have hsplit : (2 ^ 64 - y) * d.frame = (2 ^ 64 - y * d.frame) + 2 ^ 64 * (d.frame - 1) := by
      obtain ⟨f, hf⟩ : ∃ f, d.frame = f + 1 := ⟨d.frame - 1, by omega⟩
      rw [Nat.sub_mul, hf, Nat.add_sub_cancel]
      rw [hf] at hproduct
      omega
    rw [hsize, hsplit, Nat.add_mul_mod_self_left, Nat.mod_eq_of_lt (by omega)]
    omega

theorem range_check (h : d.Valid) {start count : Int} (hint : IsInt (start + count)) :
    d.data.length < toSize (start + count) * d.frame % 2 ^ 64 ↔ ¬ d.Inside start count := by
  obtain ⟨hnonneg, hneg⟩ := toSize_mul h hint
  have hsize := h.size
  unfold Inside
  rcases lt_or_ge (start + count) 0 with hlt | hge
  · constructor
    · intro _ hinside
      omega
    · intro _
      omega
  · rw [hnonneg hge]
    obtain ⟨n, hn⟩ := eq_ofNat_of_zero_le hge
    rw [hn, toNat_natCast, ← cast_mul, Nat.cast_le]
    omega

theorem encode_length (hdepth : d.bitDepth = 8 ∨ d.bitDepth = 16) (sample : F) :
    (format.encode d.bitDepth sample).length = width d.bitDepth := by
  unfold SampleFormat.encode
  rcases hdepth with hdepth | hdepth
  · rw [hdepth]
    rfl
  · rw [hdepth, if_pos rfl, storeLE_length]
    rfl

/-- The loop over samples whose indices are inside of both: each is an `int`, or the loop is not
defined. -/
theorem copyLoop_eq (hdepth : dst.bitDepth = 8 ∨ dst.bitDepth = 16) {first first' : Nat}
    (hfirst : srcStart * dst.channels = first) (hfirst' : dstStart * dst.channels = first')
    (left i : Nat) (hsrc : first + i + left ≤ src.data.length / width src.bitDepth)
    (hdst : first' + i + left ≤ dst.data.length / width dst.bitDepth) :
    copyLoop format src srcStart dstStart left i dst =
      if left = 0 ∨ (first + i + left ≤ 2 ^ 31 ∧ first' + i + left ≤ 2 ^ 31) then
        .returned { dst with
          data := overwrite dst.data (width dst.bitDepth * (first' + i))
            ((List.range left).flatMap fun k => format.encode dst.bitDepth
              (format.decode src.bitDepth (src.sampleBytes (first + i + k)))) }
      else .undefined := by
  induction left generalizing i dst with
  | zero =>
    rw [if_pos (.inl rfl), range_zero, flatMap_nil, overwrite_nil]
    rfl
  | succ left ih =>
    unfold copyLoop
    by_cases hints : first + i + 1 ≤ 2 ^ 31 ∧ first' + i + 1 ≤ 2 ^ 31
    · obtain ⟨hlt, hlt'⟩ := hints
      have hpos := (width_eq hdepth).2.2.1
      have hroom : width dst.bitDepth * (first' + i) + width dst.bitDepth ≤ dst.data.length := by
        have hle := (le_div_iff_mul_le hpos).mp hdst
        calc width dst.bitDepth * (first' + i) + width dst.bitDepth
            = (first' + i + 1) * width dst.bitDepth := by ring
          _ ≤ (first' + i + (left + 1)) * width dst.bitDepth := Nat.mul_le_mul_right _ (by omega)
          _ ≤ dst.data.length := hle
      have hencode := fun sample => @encode_length F format dst hdepth sample
      rw [hfirst, int_of_isInt ⟨by omega, by omega⟩, Call.returned_bind, ← cast_add,
        int_of_isInt ⟨by omega, by omega⟩, Call.returned_bind]
      unfold getSample
      rw [toNat_natCast, if_neg (by omega), Call.returned_bind, hfirst',
        int_of_isInt ⟨by omega, by omega⟩, Call.returned_bind, ← cast_add,
        int_of_isInt ⟨by omega, by omega⟩, Call.returned_bind]
      unfold setSample
      rw [toNat_natCast, if_neg (by omega), Call.returned_bind]
      have hlength := @overwrite_length dst.data (format.encode dst.bitDepth
        (format.decode src.bitDepth (src.sampleBytes (first + i))))
        (width dst.bitDepth * (first' + i)) (by rw [hencode]; exact hroom)
      have hrest := @ih { dst with
          data := overwrite dst.data (width dst.bitDepth * (first' + i))
            (format.encode dst.bitDepth
              (format.decode src.bitDepth (src.sampleBytes (first + i)))) }
        hdepth hfirst hfirst' (i + 1) (by omega) (by dsimp only; rw [hlength]; omega)
      rw [← Nat.cast_succ, hrest]
      by_cases hall : left = 0 ∨ (first + (i + 1) + left ≤ 2 ^ 31 ∧
          first' + (i + 1) + left ≤ 2 ^ 31)
      · have hall' : left + 1 = 0 ∨ (first + i + (left + 1) ≤ 2 ^ 31 ∧
            first' + i + (left + 1) ≤ 2 ^ 31) := by omega
        rw [if_pos hall, if_pos hall']
        have hbytes : ((List.range (left + 1)).flatMap fun k => format.encode dst.bitDepth
            (format.decode src.bitDepth (src.sampleBytes (first + i + k)))) =
              format.encode dst.bitDepth
                (format.decode src.bitDepth (src.sampleBytes (first + i))) ++
              (List.range left).flatMap fun k => format.encode dst.bitDepth
                (format.decode src.bitDepth (src.sampleBytes (first + (i + 1) + k))) := by
          rw [range_succ_eq_map, flatMap_cons, flatMap_map]
          congr 1
          refine flatMap_congr fun k _ => ?_
          rw [Nat.succ_eq_add_one, show first + i + (k + 1) = first + (i + 1) + k by omega]
        have hcount : ((List.range left).flatMap fun k => format.encode dst.bitDepth
            (format.decode src.bitDepth (src.sampleBytes (first + (i + 1) + k)))).length =
              left * width dst.bitDepth := by
          rw [length_flatMap]
          simp only [hencode, map_const', length_range, sum_replicate_nat]
        have hnext := @overwrite_next dst.data (format.encode dst.bitDepth
          (format.decode src.bitDepth (src.sampleBytes (first + i))))
          ((List.range left).flatMap fun k => format.encode dst.bitDepth
            (format.decode src.bitDepth (src.sampleBytes (first + (i + 1) + k))))
          (width dst.bitDepth * (first' + i)) (by
            rw [hencode, hcount]
            have hle := (le_div_iff_mul_le hpos).mp hdst
            calc width dst.bitDepth * (first' + i) + width dst.bitDepth +
                  left * width dst.bitDepth
                = (first' + i + (left + 1)) * width dst.bitDepth := by ring
              _ ≤ dst.data.length := hle)
        rw [hencode, ← Nat.mul_succ] at hnext
        rw [hbytes, ← hnext, show first' + (i + 1) = (first' + i).succ from rfl]
      · rw [if_neg hall, if_neg (by omega)]
    · -- an index that is not an `int`
      rw [if_neg (by omega), hfirst]
      by_cases hint : IsInt first
      · rw [int_of_isInt hint, Call.returned_bind, ← cast_add]
        by_cases hint' : IsInt (first + i : Nat)
        · rw [int_of_isInt hint', Call.returned_bind]
          unfold getSample
          rw [toNat_natCast, if_neg (by omega), Call.returned_bind, hfirst']
          by_cases hint'' : IsInt first'
          · have hlt := hint'.2
            rw [int_of_isInt hint'', Call.returned_bind, ← cast_add,
              int_of_not (fun h => by have hlt' := h.2; omega)]
            rfl
          · rw [int_of_not hint'']
            rfl
        · rw [int_of_not hint']
          rfl
      · rw [int_of_not hint]
        rfl

theorem copyLoop_copiesRight_iff (hdst : dst.Valid) (hsrc : src.Valid)
    (hchannels : dst.channels = src.channels) (hdepth : dst.bitDepth ≠ src.bitDepth)
    (hdstStart : 0 ≤ dstStart) (hdstInside : dst.Inside dstStart count) (hsrcStart : 0 ≤ srcStart)
    (hsrcInside : src.Inside srcStart count) :
    CopiesRight format dst src srcStart count dstStart
        ((int (count * dst.channels)).bind fun n =>
          copyLoop format src srcStart dstStart n.toNat 0 dst) ↔
      IsInt (count * dst.channels) ∧
        (0 < count → (srcStart + count) * dst.channels ≤ 2 ^ 31 ∧
          (dstStart + count) * dst.channels ≤ 2 ^ 31) := by
  refine int_iff id fun _ => ?_
  obtain ⟨ch, hch⟩ := eq_ofNat_of_zero_le hdst.channels.1.le
  obtain ⟨a, rfl⟩ := eq_ofNat_of_zero_le hsrcStart
  obtain ⟨b, rfl⟩ := eq_ofNat_of_zero_le hdstStart
  obtain ⟨-, -, hwidth, -⟩ := width_eq hdst.bitDepth
  obtain ⟨-, -, hwidth', -⟩ := width_eq hsrc.bitDepth
  have hframe : dst.frame = ch * width dst.bitDepth := by
    unfold frame
    rw [hch, toNat_natCast]
  have hframe' : src.frame = ch * width src.bitDepth := by
    unfold frame
    rw [← hchannels, hch, toNat_natCast]
  have hright : ∀ data, data = overwrite dst.data (b * dst.frame)
      (copied format dst src a count) →
      CopiesRight format dst src a count b (.returned { dst with data }) := by
    rintro data rfl
    refine ⟨⟨hsrcStart, hsrcInside⟩, ⟨hdstStart, hdstInside⟩, ?_⟩
    rw [toNat_natCast]
  rcases le_or_gt count 0 with hnone | hsome
  · -- nothing is copied
    have hzero : (count * dst.channels).toNat = 0 := by
      rw [Int.toNat_eq_zero]
      exact mul_nonpos_of_nonpos_of_nonneg hnone hdst.channels.1.le
    rw [hzero]
    refine ⟨fun _ hpos => absurd hpos (not_lt.mpr hnone), fun _ => hright dst.data ?_⟩
    unfold copied
    rw [if_neg hdepth, hzero, range_zero, flatMap_nil, overwrite_nil]
  · obtain ⟨n, rfl⟩ := eq_ofNat_of_zero_le hsome.le
    obtain ⟨-, hdstEnd⟩ := hdstInside
    obtain ⟨-, hsrcEnd⟩ := hsrcInside
    rw [hframe] at hdstEnd
    rw [hframe'] at hsrcEnd
    have hdstRoom : b * ch + 0 + n * ch ≤ dst.data.length / width dst.bitDepth := by
      rw [le_div_iff_mul_le hwidth, add_zero, ← add_mul, Nat.mul_assoc]
      exact_mod_cast hdstEnd
    have hsrcRoom : a * ch + 0 + n * ch ≤ src.data.length / width src.bitDepth := by
      rw [le_div_iff_mul_le hwidth', add_zero, ← add_mul, Nat.mul_assoc]
      exact_mod_cast hsrcEnd
    have hn : ((n : Int) * dst.channels).toNat = n * ch := by
      rw [hch, ← cast_mul, toNat_natCast]
    have hpos : 0 < ch := by
      have hlt := hdst.channels.1
      omega
    have hnpos : 0 < n * ch := Nat.mul_pos (by omega) hpos
    have hloop := @copyLoop_eq F format dst src a b hdst.bitDepth (a * ch) (b * ch)
      (by rw [hch, cast_mul]) (by rw [hch, cast_mul]) (n * ch) 0 hsrcRoom hdstRoom
    rw [hn]
    refine (iff_of_eq (congrArg (CopiesRight format dst src a n b) hloop)).trans ?_
    have hends : ((0 < (n : Int) → ((a : Int) + n) * dst.channels ≤ 2 ^ 31 ∧
        ((b : Int) + n) * dst.channels ≤ 2 ^ 31) ↔
        (n * ch = 0 ∨ (a * ch + 0 + n * ch ≤ 2 ^ 31 ∧ b * ch + 0 + n * ch ≤ 2 ^ 31))) := by
      rw [hch, add_zero, add_zero, ← add_mul, ← add_mul]
      constructor
      · intro hall
        obtain ⟨hle, hle'⟩ := hall hsome
        exact .inr ⟨by exact_mod_cast hle, by exact_mod_cast hle'⟩
      · rintro (hzero | ⟨hle, hle'⟩) -
        · omega
        · exact ⟨by exact_mod_cast hle, by exact_mod_cast hle'⟩
    rw [hends]
    split
    next hall =>
      refine ⟨fun _ => hall, fun _ => hright _ ?_⟩
      unfold copied
      rw [if_neg hdepth, hn, hframe, hch, ← cast_mul, toNat_natCast]
      rw [show width dst.bitDepth * (b * ch + 0) = b * (ch * width dst.bitDepth) by ring]
      rfl
    next hall =>
      exact ⟨fun h => h.elim, fun h => absurd h hall⟩

theorem memmove_copiesRight_iff (hdst : dst.Valid)
    (hchannels : dst.channels = src.channels) (hdepth : dst.bitDepth = src.bitDepth)
    (hdstStart : 0 ≤ dstStart) (hdstInside : dst.Inside dstStart count) (hsrcStart : 0 ≤ srcStart)
    (hsrcInside : src.Inside srcStart count) (hdstInt : IsInt (dstStart + count))
    (hsrcInt : IsInt (srcStart + count)) (hcountInt : IsInt count) :
    CopiesRight format dst src srcStart count dstStart
        ((memmove dst.data (toSize dstStart * dst.frame % 2 ^ 64) src.data
          (toSize srcStart * dst.frame % 2 ^ 64) (toSize count * dst.frame % 2 ^ 64)).bind
            fun data => .returned { dst with data }) ↔
      0 ≤ count := by
  have hframe : src.frame = dst.frame := by
    unfold frame
    rw [hchannels, hdepth]
  have hdstSize := hdst.size
  rcases lt_or_ge count 0 with hneg | hcount
  · -- so many bytes that they are in no buffer
    have hbig := (toSize_mul hdst hcountInt).2 hneg
    unfold memmove
    rw [if_neg (by omega)]
    exact ⟨fun h => h.elim, fun h => absurd hneg (not_lt.mpr h)⟩
  · obtain ⟨a, rfl⟩ := eq_ofNat_of_zero_le hsrcStart
    obtain ⟨b, rfl⟩ := eq_ofNat_of_zero_le hdstStart
    obtain ⟨n, rfl⟩ := eq_ofNat_of_zero_le hcount
    have ha : IsInt a := ⟨by omega, by have hlt := hsrcInt.2; omega⟩
    have hb : IsInt b := ⟨by omega, by have hlt := hdstInt.2; omega⟩
    have hdstEnd := hdstInside.2
    have hsrcEnd := hsrcInside.2
    rw [hframe] at hsrcEnd
    have hdstRoom : b * dst.frame + n * dst.frame ≤ dst.data.length := by
      rw [← add_mul]
      exact_mod_cast hdstEnd
    have hsrcRoom : a * dst.frame + n * dst.frame ≤ src.data.length := by
      rw [← add_mul]
      exact_mod_cast hsrcEnd
    rw [(toSize_mul hdst hb).1 hdstStart, (toSize_mul hdst ha).1 hsrcStart,
      (toSize_mul hdst hcountInt).1 hcount]
    unfold memmove
    simp only [toNat_natCast]
    rw [if_pos ⟨hdstRoom, hsrcRoom⟩, Call.returned_bind]
    refine ⟨fun _ => hcount, fun _ => ⟨⟨hsrcStart, hsrcInside⟩, ⟨hdstStart, hdstInside⟩, ?_⟩⟩
    unfold copied
    rw [if_pos hdepth, hframe]
    rfl

theorem copyFrom_copiesRight_iff {other : Option SoundData} (hdst : dst.Valid)
    (hsrc : (other.getD dst).Valid) (hcount : IsInt count) :
    CopiesRight format dst (other.getD dst) srcStart count dstStart
        (copyFrom format dst other srcStart count dstStart) ↔
      CopyFits dst (other.getD dst) srcStart count dstStart := by
  unfold copyFrom CopyFits
  dsimp only
  generalize other.getD dst = src at hsrc
  rw [hdst.bytesPerSample, hsrc.bytesPerSample]
  refine check_iff trivial not_not fun hchannels => ?_
  refine check_iff trivial not_lt fun hdstStart => ?_
  refine int_iff id fun hdstInt => ?_
  refine check_iff trivial (by rw [range_check hdst hdstInt, not_not]) fun hdstInside => ?_
  refine check_iff trivial not_lt fun hsrcStart => ?_
  refine int_iff id fun hsrcInt => ?_
  refine check_iff trivial (by rw [range_check hsrc hsrcInt, not_not]) fun hsrcInside => ?_
  by_cases hdepth : dst.bitDepth = src.bitDepth
  · rw [if_neg (not_not.mpr hdepth), imp_iff_right hdepth,
      and_iff_left (fun h => absurd hdepth h)]
    exact memmove_copiesRight_iff hdst hchannels hdepth hdstStart hdstInside hsrcStart
      hsrcInside hdstInt hsrcInt hcount
  · rw [if_pos hdepth, imp_iff_right hdepth, and_iff_right (fun h => absurd h hdepth)]
    exact copyLoop_copiesRight_iff hdst hsrc hchannels hdepth hdstStart hdstInside hsrcStart
      hsrcInside

end

/-! ## Slices -/

section

variable {memory : Memory} {d : SoundData} {start length : Int}

theorem inside_of_le_count (h : d.Valid) (hnonneg : 0 ≤ start + length)
    (hle : start + length ≤ d.getSampleCount) : d.Inside start length := by
  obtain ⟨hpos, -⟩ := h.frame_bounds
  obtain ⟨n, hn⟩ := eq_ofNat_of_zero_le hnonneg
  unfold Inside
  rw [hn] at hle ⊢
  refine ⟨Int.natCast_nonneg n, ?_⟩
  unfold getSampleCount at hle
  rw [Nat.div_div_eq_div_mul] at hle
  change (n : Int) ≤ ((d.data.length / d.frame : Nat) : Int).bmod (2 ^ 32) at hle
  have hcount : n ≤ d.data.length / d.frame := by
    have hself := bmod_le_self (d.data.length / d.frame)
    omega
  exact_mod_cast (le_div_iff_mul_le hpos).mp hcount

theorem load_slicesRight_iff (h : d.Valid) (hstart : 0 ≤ start)
    (hle : start + d.sliceLength start length ≤ d.getSampleCount) :
    SlicesRight d start length
        (load memory (d.sliceLength start length) d.sampleRate d.bitDepth d.channels
          (some (d.data.drop (start.toNat * d.frame)))) ↔
      (0 < d.sliceLength start length → 0 < d.sampleRate →
        d.sliceLength start length * (d.bitDepth / 8) * d.channels < 2 ^ 31) := by
  unfold SlicesRight
  by_cases haccepted : 0 < d.sliceLength start length ∧ 0 < d.sampleRate
  · obtain ⟨hpos, hrate⟩ := haccepted
    rw [imp_iff_right hpos, imp_iff_right hrate, load_eq hpos hrate h.bitDepth h.channels.1]
    have hinside := inside_of_le_count h (by omega) hle
    obtain ⟨n, hn⟩ := eq_ofNat_of_zero_le hpos.le
    rw [hn] at hpos hinside ⊢
    have hsize : ((n : Int) * (d.bitDepth / 8) * d.channels) = (n * d.frame : Nat) := by
      obtain ⟨ch, hch⟩ := eq_ofNat_of_zero_le h.channels.1.le
      unfold frame
      rw [← (width_eq h.bitDepth).1, hch, toNat_natCast]
      push_cast
      ring
    have hroom : n * d.frame ≤ (d.data.drop (start.toNat * d.frame)).length := by
      obtain ⟨a, rfl⟩ := eq_ofNat_of_zero_le hstart
      have hend : (a + n) * d.frame ≤ d.data.length := by exact_mod_cast hinside.2
      rw [add_mul] at hend
      rw [length_drop, toNat_natCast]
      omega
    unfold loaded
    dsimp only
    rw [hsize, toNat_natCast, if_pos hroom]
    by_cases hbig : (2 : Int) ^ 31 ≤ (n * d.frame : Nat)
    · rw [if_pos hbig]
      exact ⟨fun hright => hright.elim, fun hlt => absurd hbig (not_le.mpr hlt)⟩
    · rw [if_neg hbig]
      refine ⟨fun _ => not_le.mp hbig, fun _ => ?_⟩
      by_cases hmemory : memory.canAllocate (n * d.frame) = false
      · rw [if_pos hmemory]
        trivial
      · rw [if_neg hmemory]
        exact ⟨hstart, hpos, hinside, rfl⟩
  · obtain ⟨what, hthrew⟩ := @load_threw memory (d.sliceLength start length) d.sampleRate
      d.bitDepth d.channels (some (d.data.drop (start.toNat * d.frame)))
      (fun hall => haccepted ⟨hall.1, hall.2.1⟩)
    rw [hthrew]
    exact ⟨fun _ hpos hrate => absurd ⟨hpos, hrate⟩ haccepted, fun _ => trivial⟩

theorem slice_slicesRight_iff (h : d.Valid) :
    SlicesRight d start length (slice memory d start length) ↔ SliceFits d start length := by
  unfold slice SliceFits
  dsimp only
  refine check_iff trivial Iff.rfl fun _ => ?_
  by_cases hlengthInt : length < 0 → IsInt (d.getSampleCount - start)
  swap
  · rw [Classical.not_imp] at hlengthInt
    rw [if_pos hlengthInt.1, int_of_not hlengthInt.2]
    exact ⟨fun hright => hright.elim, fun hfits => absurd (hfits.1 hlengthInt.1) hlengthInt.2⟩
  have hlength : (if length < 0 then int (d.getSampleCount - start) else .returned length) =
      .returned (d.sliceLength start length) := by
    unfold sliceLength
    by_cases hneg : length < 0
    · rw [if_pos hneg, if_pos hneg, int_of_isInt (hlengthInt hneg)]
    · rw [if_neg hneg, if_neg hneg]
  rw [hlength, Call.returned_bind, and_iff_right hlengthInt]
  refine check_iff trivial not_lt fun hstart => ?_
  refine int_iff id fun _ => ?_
  refine check_iff trivial not_lt fun hover => ?_
  obtain ⟨hwidth, hdepth, hwidthPos, -⟩ := width_eq h.bitDepth
  have hfirst : 0 ≤ start * d.channels := mul_nonneg hstart h.channels.1.le
  by_cases hbits : start * d.channels * d.bitDepth < 2 ^ 31
  · have hdepthPos : 1 ≤ d.bitDepth := by omega
    have hle : start * d.channels ≤ start * d.channels * d.bitDepth :=
      le_mul_of_one_le_right hfirst hdepthPos
    have hoffset : (start * d.channels * d.bitDepth / 8).toNat = start.toNat * d.frame := by
      obtain ⟨ch, hch⟩ := eq_ofNat_of_zero_le h.channels.1.le
      obtain ⟨a, rfl⟩ := eq_ofNat_of_zero_le hstart
      have hbytes : (a : Int) * d.channels * d.bitDepth = 8 * (a * d.frame : Nat) := by
        unfold frame
        rw [hch, toNat_natCast]
        conv_lhs => rw [hdepth]
        push_cast
        ring
      rw [hbytes, toNat_natCast]
      omega
    rw [int_of_isInt ⟨by omega, by omega⟩, Call.returned_bind,
      int_of_isInt ⟨by omega, by omega⟩, Call.returned_bind, hoffset, and_iff_right hbits]
    exact load_slicesRight_iff h hstart hover
  · -- the first bit of the slice is not an `int`
    refine ⟨fun hright => ?_, fun hfits => absurd hfits.1 hbits⟩
    by_cases hint : IsInt (start * d.channels)
    · rw [int_of_isInt hint, Call.returned_bind, int_of_not (fun hall => hbits hall.2)] at hright
      exact hright.elim
    · rw [int_of_not hint] at hright
      exact hright.elim

end

/-- Sizes, copies and slices, each where it fits. -/
theorem ranges_safe_iff (memory : Memory) (format : SampleFormat F)
    (samples sampleRate bitDepth channels : Int) {decoder : Decoder}
    (hdecoder : 0 < decoder.channels) {dst : SoundData} {other : Option SoundData}
    (hdst : dst.Valid) (hsrc : (other.getD dst).Valid) (srcStart : Int) {count : Int}
    (hcount : IsInt count) (dstStart start length : Int) :
    (SizeRight (fun _ => samples * (bitDepth / 8) * channels)
        (load memory samples sampleRate bitDepth channels none) ↔
      LoadFits samples sampleRate bitDepth channels) ∧
    (SizeRight (fun d => d.getSampleCount * (d.bitDepth / 8) * d.channels)
        (ofDecoder memory decoder) ↔
      DecoderFits memory decoder) ∧
    (CopiesRight format dst (other.getD dst) srcStart count dstStart
        (copyFrom format dst other srcStart count dstStart) ↔
      CopyFits dst (other.getD dst) srcStart count dstStart) ∧
    (SlicesRight dst start length (slice memory dst start length) ↔ SliceFits dst start length) :=
  ⟨load_sizeRight_iff, ofDecoder_sizeRight_iff hdecoder, copyFrom_copiesRight_iff hdst hsrc hcount,
    slice_slicesRight_iff hdst⟩

theorem gigabyte_bounded (n : Nat) (h : decide (n ≤ 2 ^ 30) = true) : n < 2 ^ 63 := by
  have hle := of_decide_eq_true h
  omega

/-- A memory of 1 GB. -/
def gigabyte : Memory := ⟨fun n => decide (n ≤ 2 ^ 30), gigabyte_bounded⟩

/-- Samples as whole numbers, those of a byte between -128 and 127. -/
def wholeSamples : SampleFormat Int where
  decode8 byte := (byte.toNat - 128) * 256
  decode16 := BitVec.toInt
  encode8 sample := BitVec.ofInt 8 (sample / 256 + 128)
  encode16 := BitVec.ofInt 16

/-- Four samples of a byte. -/
def fourSamples : SoundData := ⟨[128, 129, 130, 131], 44100, 8, 1⟩

theorem fourSamples_valid : fourSamples.Valid := ⟨.inl rfl, by decide, by decide⟩

theorem ranges_safe_iff_fourSamples :
    (SizeRight (fun _ => 4 * (16 / 8) * 2) (load gigabyte 4 44100 16 2 none) ↔
      LoadFits 4 44100 16 2) ∧
    (SizeRight (fun d => d.getSampleCount * (d.bitDepth / 8) * d.channels)
        (ofDecoder gigabyte ⟨[[128, 129], [130]], 8, 1, 44100⟩) ↔
      DecoderFits gigabyte ⟨[[128, 129], [130]], 8, 1, 44100⟩) ∧
    (CopiesRight wholeSamples fourSamples fourSamples 0 3 1
        (copyFrom wholeSamples fourSamples none 0 3 1) ↔
      CopyFits fourSamples fourSamples 0 3 1) ∧
    (SlicesRight fourSamples 1 2 (slice gigabyte fourSamples 1 2) ↔ SliceFits fourSamples 1 2) :=
  @ranges_safe_iff Int gigabyte wholeSamples 4 44100 16 2 ⟨[[128, 129], [130]], 8, 1, 44100⟩
    (by decide) fourSamples none fourSamples_valid fourSamples_valid 0 3 (by decide) 1 1 2

/-- 2 ^ 30 samples of 16 bits in two channels are more bytes than an `int` has numbers; a count
below 0 is so many bytes; and 4 samples from the third to the last sample are too far. -/
theorem not_ranges_safe :
    ¬ SizeRight (fun _ => 2 ^ 30 * (16 / 8) * 2) (load gigabyte (2 ^ 30) 44100 16 2 none) ∧
    ¬ CopiesRight wholeSamples fourSamples fourSamples 2 (-1) 1
        (copyFrom wholeSamples fourSamples none 2 (-1) 1) ∧
    ¬ SlicesRight fourSamples 3 (2 ^ 31 - 1) (slice gigabyte fourSamples 3 (2 ^ 31 - 1)) := by
  refine ⟨?_, ?_, ?_⟩
  · intro h
    exact absurd (load_sizeRight_iff.mp h (by norm_num) (by norm_num) (.inr rfl) (by norm_num))
      (by norm_num)
  · intro h
    have hundefined : copyFrom wholeSamples fourSamples none 2 (-1) 1 = .undefined := rfl
    exact h
  · intro h
    have hundefined : slice gigabyte fourSamples 3 (2 ^ 31 - 1) = .undefined := rfl
    exact h

end Lhatove.Sound.SoundData
