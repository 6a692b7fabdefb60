import Lhatove.Sound.LullabyDecoders

/-!
# Decoding to the end

When the pieces that a decoder gives are together what it decodes.

- `Filled`: what is in the buffer of a decoder, and where its library is;
- `decode_*`: what one call of `decode` gives, for each of the decoders;
- `decodeAll_lossless_iff`: decoding until the decoder is finished gives the stream's data in
  whole frames if and only if the decoder is the one for MP3, the buffer's size is one of whole
  frames, or what is left fits into the buffer.
-/

namespace Lhatove.Sound.Lullaby

open LoopM List

variable {H : Type}

theorem toInt_of_lt {n : Nat} (h : n < 2 ^ 31) : toInt n = n :=
  Int.bmod_eq_of_le (by omega) (by omega)

/-! ## What is in a buffer -/

/-- `size` bytes of what is left from `start` on are in the buffer, and the library is behind
them. -/
structure Filled (pcm : List Byte) (offset : H → Nat) (bufferSize start size : Nat) (eof : Bool)
    (d : Decoder H) : Prop where
  size_le : size ≤ bufferSize
  bufferSize_eq : d.bufferSize = bufferSize
  buffer_length : d.buffer.length = bufferSize
  offset_eq : offset d.handle = start + size
  bytes : d.buffer.take size = (pcm.drop start).take size
  eof_eq : d.eof = eof

variable {pcm : List Byte} {offset : H → Nat} {B : Nat}

/-- A decoder before a call of `decode`. -/
abbrev Ready (pcm : List Byte) (offset : H → Nat) (B start : Nat) (d : Decoder H) : Prop :=
  Filled pcm offset B start 0 false d

theorem Filled.read {start size : Nat} {eof : Bool} {d : Decoder H}
    (h : Filled pcm offset B start size eof d) {bytes : List Byte} {handle : H}
    (hroom : bytes.length ≤ B - size) (hbytes : bytes <+: pcm.drop (offset d.handle))
    (hoffset : offset handle = offset d.handle + bytes.length) (eof' : Bool) :
    Filled pcm offset B start (size + bytes.length) eof'
      { d with handle := handle, buffer := overwrite d.buffer size bytes, eof := eof' } where
  size_le := by
    have hle := h.size_le
    omega
  bufferSize_eq := h.bufferSize_eq
  buffer_length := by
    have hle := h.size_le
    have hlength := h.buffer_length
    rw [overwrite_length (by omega), hlength]
  offset_eq := by
    rw [hoffset, h.offset_eq, Nat.add_assoc]
  bytes := by
    have hle := h.size_le
    have hlength := h.buffer_length
    rw [overwrite_take (by omega), h.bytes, take_add, drop_drop, ← h.offset_eq,
      ← prefix_iff_eq_take.mp hbytes]
  eof_eq := rfl

/-! ## One call of `decode` -/

/-- `decode` gives the next `size` bytes, and the decoder is finished or not. -/
def Gives (lib : Backend H) (pcm : List Byte) (offset : H → Nat) (B start size : Nat) (eof : Bool)
    (d : Decoder H) : Prop :=
  ∃ t, lib.decode.result d = some (.ok (size : Int), t) ∧ Filled pcm offset B start size eof t

section Frames

variable {lib : FrameLibrary H} {start : Nat} {d : Decoder H}

theorem room_eq (B channels : Nat) : B / 2 / channels = B / (2 * channels) :=
  Nat.div_div_eq_div_mul B 2 channels

/-- What a reading gives that asks for as many frames as the buffer has room for. -/
theorem frameRead_length (hlib : lib.Plays pcm offset) (hd : Ready pcm offset B start d) :
    (lib.readPcmFramesS16 (d.bufferSize / 2 / lib.channels) d.handle).bytes.length =
      min (B / (2 * lib.channels) * (2 * lib.channels)) (pcm.length - start) := by
  rw [hlib.bytes, List.length_take, List.length_drop, hd.offset_eq, hd.bufferSize_eq, room_eq,
    Nat.add_zero]

theorem frameRead_filled (hlib : lib.Plays pcm offset) (hd : Ready pcm offset B start d)
    (eof : Bool) :
    Filled pcm offset B start
      (min (B / (2 * lib.channels) * (2 * lib.channels)) (pcm.length - start)) eof
      { d with
        handle := (lib.readPcmFramesS16 (d.bufferSize / 2 / lib.channels) d.handle).handle
        buffer := overwrite d.buffer 0
          (lib.readPcmFramesS16 (d.bufferSize / 2 / lib.channels) d.handle).bytes
        eof := eof } := by
  have hlength := frameRead_length hlib hd
  have hroom := Nat.div_mul_le_self B (2 * lib.channels)
  have hread := @Filled.read H pcm offset B start 0 false d hd
    (lib.readPcmFramesS16 (d.bufferSize / 2 / lib.channels) d.handle).bytes
    (lib.readPcmFramesS16 (d.bufferSize / 2 / lib.channels) d.handle).handle
    (by omega) (by rw [hlib.bytes]; exact take_prefix _ _) (hlib.read_offset _ _) eof
  rw [hlength, Nat.zero_add] at hread
  exact hread

theorem decode_flac (hlib : lib.Plays pcm offset) (hint : B < 2 ^ 31)
    (hd : Ready pcm offset B start d) :
    Gives (.flac lib) pcm offset B start
      (min (B / (2 * lib.channels) * (2 * lib.channels)) (pcm.length - start))
      (decide (min (B / (2 * lib.channels) * (2 * lib.channels)) (pcm.length - start) < B)) d := by
  have hlength := frameRead_length hlib hd
  have hroom := Nat.div_mul_le_self B (2 * lib.channels)
  have hread : toInt ((lib.readPcmFramesS16 (d.bufferSize / 2 / lib.channels) d.handle).frames *
      (2 * lib.channels)) =
      (min (B / (2 * lib.channels) * (2 * lib.channels)) (pcm.length - start) : Nat) := by
    rw [hlib.frames, hlength, toInt_of_lt (by omega)]
  refine ⟨_, ?_, frameRead_filled hlib hd _⟩
  show (FLACDecoder.decode lib).result d = _
  rw [FLACDecoder.decode, result_bind_ok (result_get d)]
  rw [result_bind_ok (result_set _ _), result_pure, hread, hd.eof_eq, hd.bufferSize_eq,
    Bool.false_or]
  simp only [Nat.cast_lt]

theorem decode_mp3 (hlib : lib.Plays pcm offset) (hint : B < 2 ^ 31)
    (hd : Ready pcm offset B start d) :
    Gives (.mp3 lib) pcm offset B start
      (min (B / (2 * lib.channels) * (2 * lib.channels)) (pcm.length - start))
      (decide (pcm.length - start < B / (2 * lib.channels) * (2 * lib.channels))) d := by
  have hlength := frameRead_length hlib hd
  have hroom := Nat.div_mul_le_self B (2 * lib.channels)
  have hpos := hlib.channels_pos
  have hframes := hlib.frames (d.bufferSize / 2 / lib.channels) d.handle
  refine ⟨_, ?_, frameRead_filled hlib hd _⟩
  show (MP3Decoder.decode lib).result d = _
  rw [MP3Decoder.decode, result_bind_ok (result_get d)]
  dsimp only
  rw [hlength] at hframes
  generalize hcount : (lib.readPcmFramesS16 (d.bufferSize / 2 / lib.channels) d.handle).frames =
    count at hframes
  have hcount_le : count * 1 ≤ count * (2 * lib.channels) := Nat.mul_le_mul_left count (by omega)
  have hint' : toInt count = count := toInt_of_lt (by omega)
  -- fewer frames than asked for are fewer bytes
  have hfewer : count < B / (2 * lib.channels) ↔
      pcm.length - start < B / (2 * lib.channels) * (2 * lib.channels) := by
    rw [← Nat.mul_lt_mul_right (a := 2 * lib.channels) (by omega), hframes]
    omega
  have hreturned : ((count : Int) * 2 * lib.channels).bmod (2 ^ 32) =
      (min (B / (2 * lib.channels) * (2 * lib.channels)) (pcm.length - start) : Nat) := by
    have hcast : (count : Int) * 2 * lib.channels = (count * (2 * lib.channels) : Nat) := by
      push_cast
      ring
    rw [hcast, hframes]
    exact toInt_of_lt (by omega)
  rw [result_bind_ok (result_set _ _), result_pure, hint', hreturned, hd.eof_eq, hd.bufferSize_eq,
    room_eq, Bool.false_or]
  simp only [Nat.cast_lt, hfewer]

end Frames

section Wave

variable {lib : Wuff H} {start size : Nat} {d : Decoder H}

theorem waveTurn_read (hlib : lib.Plays pcm offset) (hd : Filled pcm offset B start size false d)
    (hsize : size < B) (hsome : (lib.read (B - size) d.handle).bytes ≠ []) :
    ∃ t, (WaveDecoder.decodeTurn lib size).result d =
        some (.ok (.inl (size + (lib.read (B - size) d.handle).bytes.length)), t) ∧
      Filled pcm offset B start (size + (lib.read (B - size) d.handle).bytes.length) false t := by
  refine ⟨_, ?_, hd.read (hlib.room _ _) (hlib.bytes _ _) (hlib.read_offset _ _) false⟩
  have hstatus := hlib.status (B - size) d.handle (by omega)
  have hlength := length_pos_of_ne_nil hsome
  rw [WaveDecoder.decodeTurn, result_bind_ok (result_get d), hd.bufferSize_eq, if_pos hsize]
  rw [result_bind_ok (result_set _ _), if_neg (by omega), if_neg (by omega), result_pure,
    hd.eof_eq]

theorem waveTurn_end (hlib : lib.Plays pcm offset) (hd : Filled pcm offset B start size false d)
    (hsize : size < B) (hnone : (lib.read (B - size) d.handle).bytes = []) :
    ∃ t, (WaveDecoder.decodeTurn lib size).result d = some (.ok (.inr (toInt size)), t) ∧
      Filled pcm offset B start size true t := by
  have hread := hd.read (hlib.room (B - size) d.handle) (hlib.bytes _ _) (hlib.read_offset _ _) true
  have hstatus := hlib.status (B - size) d.handle (by omega)
  have hzero : (lib.read (B - size) d.handle).bytes.length = 0 := by rw [hnone]; rfl
  refine ⟨_, ?_, by rw [hzero] at hread; exact hread⟩
  rw [WaveDecoder.decodeTurn, result_bind_ok (result_get d), hd.bufferSize_eq, if_pos hsize]
  rw [result_bind_ok (result_set _ _), if_neg (by omega), if_pos hzero,
    result_bind_ok (result_modify _ _), result_pure]

/-- Wave: all bytes that there is room for, and finished where there were fewer. -/
theorem decode_wave (hlib : lib.Plays pcm offset) (hint : B < 2 ^ 31)
    (hd : Ready pcm offset B start d) :
    Gives (.wave lib) pcm offset B start (min B (pcm.length - start))
      (decide (pcm.length - start < B)) d := by
  have hloop : ∃ r t, (WaveDecoder.decode lib).result d = some (r, t) ∧
      r = .ok ((min B (pcm.length - start) : Nat) : Int) ∧
      Filled pcm offset B start (min B (pcm.length - start)) (decide (pcm.length - start < B)) t :=
    repeatM_ends (P := fun size d => Filled pcm offset B start size false d)
      (fun size _ => B - size) (fun size d hd => ?_) hd
  · obtain ⟨r, t, hr, hreturned, hfilled⟩ := hloop
    exact ⟨t, by rw [← hreturned]; exact hr, hfilled⟩
  · have hle := hd.size_le
    have hoffset := hd.offset_eq
    have hstream := hlib.offset_le d.handle
    rcases Nat.lt_or_ge size B with hsize | hfull
    · by_cases hnone : (lib.read (B - size) d.handle).bytes = []
      · obtain ⟨t, ht, hfilled⟩ := waveTurn_end hlib hd hsize hnone
        have hend := hlib.some (B - size) d.handle (by omega) hnone
        have hleft : min B (pcm.length - start) = size := by omega
        have hfewer : decide (pcm.length - start < B) = true := decide_eq_true (by omega)
        refine ⟨_, t, ht, ?_, ?_⟩
        · rw [hleft, toInt_of_lt (by omega)]
        · rw [hleft, hfewer]
          exact hfilled
      · obtain ⟨t, ht, hfilled⟩ := waveTurn_read hlib hd hsize hnone
        have hsome := length_pos_of_ne_nil hnone
        exact ⟨_, t, ht, hfilled, by omega⟩
    · have hleft : min B (pcm.length - start) = size := by omega
      have hmore : decide (pcm.length - start < B) = false := decide_eq_false (by omega)
      refine ⟨.ok (.inr (toInt size)), d, ?_, ?_, ?_⟩
      · rw [WaveDecoder.decodeTurn, result_bind_ok (result_get d), hd.bufferSize_eq,
          if_neg (by omega), result_pure]
      · rw [hleft, toInt_of_lt (by omega)]
      · rw [hleft, hmore]
        exact hd

end Wave

section Vorbis

variable {lib : VorbisFile H} {start size : Nat} {d : Decoder H}

theorem vorbisTurn_read (hlib : lib.Plays pcm offset)
    (hd : Filled pcm offset B start size false d) (hsize : size < B)
    (hsome : 0 < (lib.read (B - size) d.handle).result) :
    ∃ t, (VorbisDecoder.decodeTurn lib size).result d =
        some (.ok (.inl (size + (lib.read (B - size) d.handle).bytes.length)), t) ∧
      Filled pcm offset B start (size + (lib.read (B - size) d.handle).bytes.length) false t := by
  obtain ⟨hbegins, hlength⟩ := hlib.bytes (B - size) d.handle hsome.le
  refine ⟨_, ?_, hd.read (hlib.room _ _) hbegins (hlib.read_offset _ _ hsome.le) false⟩
  have hcount : (lib.read (B - size) d.handle).result.toNat =
      (lib.read (B - size) d.handle).bytes.length := by omega
  rw [VorbisDecoder.decodeTurn, result_bind_ok (result_get d), hd.bufferSize_eq, if_pos hsize]
  rw [result_bind_ok (result_set _ _), if_neg (by rw [OV_HOLE]; omega),
    if_neg (by rw [OV_EREAD]; omega), if_neg (by omega), if_pos hsome, result_pure, hcount,
    hd.eof_eq]

theorem vorbisTurn_end (hlib : lib.Plays pcm offset)
    (hd : Filled pcm offset B start size false d) (hsize : size < B)
    (hend : offset d.handle = pcm.length) :
    ∃ t, (VorbisDecoder.decodeTurn lib size).result d = some (.ok (.inr (size : Int)), t) ∧
      Filled pcm offset B start size true t := by
  obtain ⟨hzero, hnone⟩ := hlib.finished (B - size) d.handle (by omega) hend
  have hread := hd.read (hlib.room (B - size) d.handle) (hlib.bytes _ _ hzero.ge).1
    (hlib.read_offset _ _ hzero.ge) true
  have hlength : (lib.read (B - size) d.handle).bytes.length = 0 := by rw [hnone]; rfl
  refine ⟨_, ?_, by rw [hlength] at hread; exact hread⟩
  rw [VorbisDecoder.decodeTurn, result_bind_ok (result_get d), hd.bufferSize_eq, if_pos hsize]
  rw [result_bind_ok (result_set _ _), if_neg (by rw [hzero, OV_HOLE]; decide),
    if_neg (by rw [hzero, OV_EREAD]; decide), if_pos hzero, result_bind_ok (result_modify _ _),
    result_pure]

theorem vorbisTurn_error (hd : Filled pcm offset B start size false d) (hsize : size < B)
    (herror : (lib.read (B - size) d.handle).result ≤ OV_EREAD) :
    ∃ t, (VorbisDecoder.decodeTurn lib size).result d = some (.ok (.inr (-1)), t) := by
  refine ⟨{ d with
    handle := (lib.read (B - size) d.handle).handle
    buffer := overwrite d.buffer size (lib.read (B - size) d.handle).bytes }, ?_⟩
  rw [VorbisDecoder.decodeTurn, result_bind_ok (result_get d), hd.bufferSize_eq, if_pos hsize]
  rw [result_bind_ok (result_set _ _), if_neg (by rw [OV_EREAD] at herror; rw [OV_HOLE]; omega),
    if_pos herror, result_pure]

theorem vorbisTurn_full (hd : Filled pcm offset B start size false d) (hsize : B ≤ size) :
    (VorbisDecoder.decodeTurn lib size).result d = some (.ok (.inr (size : Int)), d) := by
  rw [VorbisDecoder.decodeTurn, result_bind_ok (result_get d), hd.bufferSize_eq,
    if_neg (by omega), result_pure]

/-- Vorbis, where there is never too little room for a frame: all bytes that there is room for,
and finished where there were fewer. -/
theorem decode_vorbis (hlib : lib.Plays pcm offset) (hwhole : lib.channels * 2 ∣ pcm.length)
    (hstart : lib.channels * 2 ∣ start)
    (hfits : lib.channels * 2 ∣ B ∨ pcm.length - start ≤ B)
    (hd : Ready pcm offset B start d) :
    Gives (.vorbis lib) pcm offset B start (min B (pcm.length - start))
      (decide (pcm.length - start < B)) d := by
  have hloop : ∃ r t, (VorbisDecoder.decode lib).result d = some (r, t) ∧
      r = .ok ((min B (pcm.length - start) : Nat) : Int) ∧
      Filled pcm offset B start (min B (pcm.length - start)) (decide (pcm.length - start < B)) t :=
    repeatM_ends
      (P := fun size d => Filled pcm offset B start size false d ∧ lib.channels * 2 ∣ size)
      (fun size _ => B - size) (fun size d hd => ?_) ⟨hd, Nat.dvd_zero _⟩
  · obtain ⟨r, t, hr, hreturned, hfilled⟩ := hloop
    exact ⟨t, by rw [← hreturned]; exact hr, hfilled⟩
  · obtain ⟨hd, haligned⟩ := hd
    have hle := hd.size_le
    have hoffset := hd.offset_eq
    have hstream := hlib.offset_le d.handle
    rcases Nat.lt_or_ge size B with hsize | hfull
    · rcases Nat.eq_or_lt_of_le hstream with hend | hmore
      · obtain ⟨t, ht, hfilled⟩ := vorbisTurn_end hlib hd hsize hend
        have hleft : min B (pcm.length - start) = size := by omega
        have hfewer : decide (pcm.length - start < B) = true := decide_eq_true (by omega)
        refine ⟨_, t, ht, by rw [hleft], ?_⟩
        rw [hleft, hfewer]
        exact hfilled
      · -- what is left of the buffer, or of the stream, are whole frames
        have hroom : lib.channels * 2 ≤ B - size := by
          rcases hfits with hdvd | hfits
          · exact Nat.le_of_dvd (by omega) (Nat.dvd_sub hdvd haligned)
          · have hleft : lib.channels * 2 ≤ pcm.length - start - size :=
              Nat.le_of_dvd (by omega) (Nat.dvd_sub (Nat.dvd_sub hwhole hstart) haligned)
            omega
        have hsome : 0 < (lib.read (B - size) d.handle).result := by
          rcases hlib.read (B - size) d.handle (by omega) hmore with hsome | ⟨hshort, -⟩
          · exact hsome
          · omega
        obtain ⟨t, ht, hfilled⟩ := vorbisTurn_read hlib hd hsize hsome
        have hlength := (hlib.bytes (B - size) d.handle hsome.le).2
        have hframes := hlib.whole (B - size) d.handle hroom
          (by rw [hoffset]; exact Nat.dvd_add hstart haligned)
        exact ⟨_, t, ht, ⟨hfilled, Nat.dvd_add haligned hframes⟩, by omega⟩
    · have hleft : min B (pcm.length - start) = size := by omega
      have hmore : decide (pcm.length - start < B) = false := decide_eq_false (by omega)
      refine ⟨_, d, vorbisTurn_full hd hfull, by rw [hleft], ?_⟩
      rw [hleft, hmore]
      exact hd

/-- Where more is left than the buffer has room for, the buffer is filled, or there is an error. -/
theorem decode_vorbis_full (hlib : lib.Plays pcm offset) (hleft : B < pcm.length - start)
    (hd : Ready pcm offset B start d) :
    ∃ n t, (VorbisDecoder.decode lib).result d = some (.ok n, t) ∧ (n = -1 ∨ n = B) := by
  have hloop : ∃ r t, (VorbisDecoder.decode lib).result d = some (r, t) ∧
      ∃ n, r = .ok n ∧ (n = -1 ∨ n = (B : Int)) :=
    repeatM_ends (P := fun size d => Filled pcm offset B start size false d)
      (fun size _ => B - size) (fun size d hd => ?_) hd
  · obtain ⟨r, t, hr, n, hreturned, hn⟩ := hloop
    exact ⟨n, t, by rw [← hreturned]; exact hr, hn⟩
  · have hle := hd.size_le
    have hoffset := hd.offset_eq
    rcases Nat.lt_or_ge size B with hsize | hfull
    · rcases hlib.read (B - size) d.handle (by omega) (by omega) with hsome | ⟨-, herror⟩
      · obtain ⟨t, ht, hfilled⟩ := vorbisTurn_read hlib hd hsize hsome
        have hlength := (hlib.bytes (B - size) d.handle hsome.le).2
        exact ⟨_, t, ht, hfilled, by omega⟩
      · obtain ⟨t, ht⟩ := vorbisTurn_error hd hsize herror
        exact ⟨_, t, ht, -1, rfl, .inl rfl⟩
    · exact ⟨_, d, vorbisTurn_full hd hfull, _, rfl, .inr (by omega)⟩

end Vorbis

/-! ## Frames -/

theorem frameSize_flac (lib : FrameLibrary H) :
    (Backend.flac lib).frameSize = 2 * lib.channels := by
  show lib.channels * (FLACDecoder.getBitDepth / 8) = _
  exact Nat.mul_comm _ _

theorem frameSize_mp3 (lib : FrameLibrary H) :
    (Backend.mp3 lib).frameSize = 2 * lib.channels := by
  show lib.channels * (MP3Decoder.getBitDepth / 8) = _
  exact Nat.mul_comm _ _

theorem frameSize_vorbis (lib : VorbisFile H) :
    (Backend.vorbis lib).frameSize = lib.channels * 2 := by
  show lib.channels * (VorbisDecoder.getBitDepth / 8) = _
  rfl

theorem frameSize_pos {lib : Backend H} (hlib : lib.Plays pcm offset) : 0 < lib.frameSize := by
  cases lib with
  | flac lib =>
    rw [frameSize_flac]
    exact Nat.mul_pos (by decide) (FrameLibrary.Plays.channels_pos hlib)
  | mp3 lib =>
    rw [frameSize_mp3]
    exact Nat.mul_pos (by decide) (FrameLibrary.Plays.channels_pos hlib)
  | wave lib =>
    refine Nat.mul_pos (Wuff.Plays.channels_pos hlib) ?_
    show 0 < WaveDecoder.getBitDepth lib / 8
    rw [WaveDecoder.getBitDepth]
    split_ifs <;> decide
  | vorbis lib =>
    rw [frameSize_vorbis]
    exact Nat.mul_pos (VorbisFile.Plays.channels_pos hlib) (by decide)

/-! ## Decoding to the end -/

/-- Decoding ends; each call gives whole frames, no more than the buffer has room for, and
together they are the data. -/
def Lossless (lib : Backend H) (d : Decoder H) (data : List Byte) : Prop :=
  ∃ chunks t, lib.decodeAll.result d = some (.ok chunks, t) ∧
    (∀ c ∈ chunks, (0 ≤ c.1 ∧ c.1 ≤ d.bufferSize ∧ (lib.frameSize : Int) ∣ c.1) ∧
      (c.2.length : Int) = c.1) ∧
    (chunks.map Prod.snd).flatten = data

section Drained

variable {lib : Backend H} {start size : Nat} {eof : Bool} {d : Decoder H}

theorem Gives.chunk (h : Gives lib pcm offset B start size eof d) :
    ∃ t, lib.chunk.result d = some (.ok ((size : Int), (pcm.drop start).take size), t) ∧
      Filled pcm offset B start size eof t := by
  obtain ⟨t, ht, hfilled⟩ := h
  refine ⟨t, ?_, hfilled⟩
  rw [Backend.chunk, result_bind_ok ht, result_bind_ok (result_get t), result_pure,
    Int.toNat_natCast, hfilled.bytes]

theorem Filled.next (h : Filled pcm offset B start size false d) :
    Ready pcm offset B (start + size) d :=
  ⟨Nat.zero_le _, h.bufferSize_eq, h.buffer_length, h.offset_eq, by rw [take_zero,
    take_zero], h.eof_eq⟩

theorem take_length (h : size ≤ pcm.length - start) :
    ((pcm.drop start).take size).length = size := by
  rw [List.length_take, List.length_drop, Nat.min_eq_left h]

/-- A decoder that gives the same number of whole frames with each call, as long as there are as
many. -/
theorem lossless_of_strides {c : Nat} (hc : 0 < c) (hle : c ≤ B) (hframes : lib.frameSize ∣ c)
    (hwhole : lib.frameSize ∣ pcm.length)
    (hstep : ∀ start d, lib.frameSize ∣ start → Ready pcm offset B start d →
      Gives lib pcm offset B start (min c (pcm.length - start))
        (decide (pcm.length - start < c)) d)
    (hstart : lib.frameSize ∣ start) (hd : Ready pcm offset B start d) :
    Lossless lib d (pcm.drop start) := by
  have hdrained := @drain_strides Empty (Decoder H) Byte (Int × List Byte) lib.chunk Decoder.eof
    (fun d => pcm.drop (offset d.handle)) Prod.snd
    (fun d => lib.frameSize ∣ offset d.handle ∧
      (d.eof = false → Ready pcm offset B (offset d.handle) d))
    (fun p => (0 ≤ p.1 ∧ p.1 ≤ B ∧ (lib.frameSize : Int) ∣ p.1) ∧ (p.2.length : Int) = p.1)
    c hc ?_ d ?_ hd.eof_eq
  · obtain ⟨chunks, t, ht, hgood, hflat⟩ := hdrained
    rw [hd.offset_eq, Nat.add_zero] at hflat
    exact ⟨chunks, t, ht, by rw [hd.bufferSize_eq]; exact hgood, hflat⟩
  · rintro u ⟨haligned, hready⟩ heof
    obtain ⟨t, ht, hfilled⟩ := (hstep _ u haligned (hready heof)).chunk
    have hdvd : lib.frameSize ∣ min c (pcm.length - offset u.handle) := by
      rcases Nat.le_total c (pcm.length - offset u.handle) with h | h
      · rw [Nat.min_eq_left h]
        exact hframes
      · rw [Nat.min_eq_right h]
        exact Nat.dvd_sub hwhole haligned
    refine ⟨_, t, ht, ⟨?_, ?_⟩, ⟨⟨Int.natCast_nonneg _, ?_, Int.natCast_dvd_natCast.mpr hdvd⟩, ?_⟩,
      ⟨?_, ?_, ?_⟩⟩
    · rw [hfilled.offset_eq]
      exact Nat.dvd_add haligned hdvd
    · intro hmore
      rw [hfilled.offset_eq]
      exact (show Filled pcm offset B _ _ false t from ⟨hfilled.size_le, hfilled.bufferSize_eq,
        hfilled.buffer_length, hfilled.offset_eq, hfilled.bytes, hmore⟩).next
    · exact Int.ofNat_le.mpr (by omega)
    · rw [take_length (Nat.min_le_right _ _)]
    · rw [← List.length_drop, ← take_eq_take_min]
    · rw [hfilled.offset_eq, ← drop_drop, ← List.length_drop, ← drop_eq_drop_min]
    · rw [hfilled.eof_eq, decide_eq_true_iff, List.length_drop]
  · rw [hd.offset_eq, Nat.add_zero]
    exact ⟨hstart, fun _ => hd⟩

theorem lossless_once (hframes : lib.frameSize ∣ pcm.length - start)
    (hgives : Gives lib pcm offset B start (pcm.length - start) true d)
    (hd : Ready pcm offset B start d) : Lossless lib d (pcm.drop start) := by
  obtain ⟨t, ht, hfilled⟩ := hgives.chunk
  refine ⟨_, t, drain_once hd.eof_eq ht hfilled.eof_eq, ?_, ?_⟩
  · intro c hc
    have hsize := hfilled.size_le
    rw [mem_singleton.mp hc, hd.bufferSize_eq]
    exact ⟨⟨Int.natCast_nonneg _, Int.ofNat_le.mpr hsize, Int.natCast_dvd_natCast.mpr hframes⟩,
      by rw [take_length le_rfl]⟩
  · rw [map_singleton, flatten_singleton, ← List.length_drop, List.take_length]

theorem not_lossless_once (hshort : size < pcm.length - start)
    (hgives : Gives lib pcm offset B start size true d) (hd : Ready pcm offset B start d) :
    ¬ Lossless lib d (pcm.drop start) := by
  rintro ⟨chunks, u, hall, -, hflat⟩
  obtain ⟨t, ht, hfilled⟩ := hgives.chunk
  have honce : lib.decodeAll.result d = _ := drain_once hd.eof_eq ht hfilled.eof_eq
  rw [honce] at hall
  cases hall
  have hlength := congrArg List.length hflat
  rw [map_singleton, flatten_singleton, take_length hshort.le,
    List.length_drop] at hlength
  omega

theorem not_lossless_first {n : Int} {t : Decoder H}
    (hdecode : lib.decode.result d = some (.ok n, t))
    (hn : ¬ (0 ≤ n ∧ (lib.frameSize : Int) ∣ n)) (heof : d.eof = false) {data : List Byte} :
    ¬ Lossless lib d data := by
  rintro ⟨chunks, u, hall, hgood, -⟩
  have hchunk : lib.chunk.result d = some (.ok (n, t.buffer.take n.toNat), t) := by
    rw [Backend.chunk, result_bind_ok hdecode, result_bind_ok (result_get t), result_pure]
  obtain ⟨⟨hpos, -, hdvd⟩, -⟩ := hgood _ (drain_first heof hchunk hall)
  exact hn ⟨hpos, hdvd⟩

end Drained

/-! ## Decoders after calls -/

/-- A decoder that was opened with a buffer of `bufferSize` bytes, after any calls. -/
inductive Reached (lib : Backend H) (offset : H → Nat) (bufferSize : Nat) : Decoder H → Prop
  | opened {h : H} {buffer : List Byte} (hstart : offset h = 0)
      (hbuffer : buffer.length = bufferSize) :
      Reached lib offset bufferSize ⟨h, bufferSize, buffer, false⟩
  | decode {d t : Decoder H} {n : Int} (hd : Reached lib offset bufferSize d)
      (h : lib.decode.result d = some (.ok n, t)) : Reached lib offset bufferSize t
  | seek {d : Decoder H} (hd : Reached lib offset bufferSize d) (s : ℚ) :
      Reached lib offset bufferSize (lib.seek s d).2
  | rewind {d : Decoder H} (hd : Reached lib offset bufferSize d) :
      Reached lib offset bufferSize (lib.rewind d).2

/-- A decoder that was just opened, or with which a frame was sought. -/
inductive Starts (lib : Backend H) (offset : H → Nat) (bufferSize : Nat) : Nat → Decoder H → Prop
  | opened {h : H} {buffer : List Byte} (hstart : offset h = 0)
      (hbuffer : buffer.length = bufferSize) :
      Starts lib offset bufferSize 0 ⟨h, bufferSize, buffer, false⟩
  | seek {d t : Decoder H} {s : ℚ} (hd : Reached lib offset bufferSize d)
      (h : lib.seek s d = (true, t)) : Starts lib offset bufferSize (lib.soughtFrame s) t
  | rewind {d t : Decoder H} (hd : Reached lib offset bufferSize d)
      (h : lib.rewind d = (true, t)) : Starts lib offset bufferSize 0 t

/-- The buffer is as it was allocated. -/
def Sized (bufferSize : Nat) (d : Decoder H) : Prop :=
  d.bufferSize = bufferSize ∧ d.buffer.length = bufferSize

theorem Sized.write {d : Decoder H} (h : Sized B d) {bytes : List Byte} {size : Nat}
    (hsize : size ≤ d.bufferSize) (hroom : bytes.length ≤ d.bufferSize - size) (handle : H)
    (eof : Bool) :
    Sized B { d with handle := handle, buffer := overwrite d.buffer size bytes, eof := eof } := by
  obtain ⟨rfl, hlength⟩ := h
  refine ⟨rfl, ?_⟩
  rw [overwrite_length (by omega), hlength]

section Keeps

theorem frameRead_room {lib : FrameLibrary H} (hlib : lib.Plays pcm offset) (B : Nat) (h : H) :
    (lib.readPcmFramesS16 (B / 2 / lib.channels) h).bytes.length ≤ B - 0 := by
  have hroom := Nat.div_mul_le_self B (2 * lib.channels)
  rw [hlib.bytes, room_eq, List.length_take]
  omega

theorem keeps_flac {lib : FrameLibrary H} (hlib : lib.Plays pcm offset) :
    Keeps (Sized B) (FLACDecoder.decode lib) := by
  refine .get_bind fun d hd r t hr => ?_
  rw [result_bind_ok (result_set _ _), result_pure] at hr
  cases hr
  exact hd.write (Nat.zero_le _) (frameRead_room hlib _ _) _ _

theorem keeps_mp3 {lib : FrameLibrary H} (hlib : lib.Plays pcm offset) :
    Keeps (Sized B) (MP3Decoder.decode lib) := by
  refine .get_bind fun d hd r t hr => ?_
  rw [result_bind_ok (result_set _ _), result_pure] at hr
  cases hr
  exact hd.write (Nat.zero_le _) (frameRead_room hlib _ _) _ _

theorem keeps_wave {lib : Wuff H} (hlib : lib.Plays pcm offset) :
    Keeps (Sized B) (WaveDecoder.decode lib) := by
  refine .repeatM (fun size => .get_bind fun d hd r t hr => ?_) 0
  split at hr
  next hsize =>
    rw [result_bind_ok (result_set _ _)] at hr
    have hkept := hd.write hsize.le (hlib.room (d.bufferSize - size) d.handle)
      (lib.read (d.bufferSize - size) d.handle).handle
    split_ifs at hr
    · rw [result_pure] at hr
      cases hr
      exact hkept d.eof
    · rw [result_bind_ok (result_modify _ _), result_pure] at hr
      cases hr
      exact hkept true
    · rw [result_pure] at hr
      cases hr
      exact hkept d.eof
  · rw [result_pure] at hr
    cases hr
    exact hd

theorem keeps_vorbis {lib : VorbisFile H} (hlib : lib.Plays pcm offset) :
    Keeps (Sized B) (VorbisDecoder.decode lib) := by
  refine .repeatM (fun size => .get_bind fun d hd r t hr => ?_) 0
  split at hr
  next hsize =>
    rw [result_bind_ok (result_set _ _)] at hr
    have hkept := hd.write hsize.le (hlib.room (d.bufferSize - size) d.handle)
      (lib.read (d.bufferSize - size) d.handle).handle
    split_ifs at hr
    · rw [result_pure] at hr
      cases hr
      exact hkept d.eof
    · rw [result_pure] at hr
      cases hr
      exact hkept d.eof
    · rw [result_bind_ok (result_modify _ _), result_pure] at hr
      cases hr
      exact hkept true
    all_goals
      rw [result_pure] at hr
      cases hr
      exact hkept d.eof
  · rw [result_pure] at hr
    cases hr
    exact hd

end Keeps

theorem keeps_decode {lib : Backend H} (hlib : lib.Plays pcm offset) :
    Keeps (Sized B) lib.decode := by
  cases lib with
  | flac lib => exact keeps_flac hlib
  | mp3 lib => exact keeps_mp3 hlib
  | wave lib => exact keeps_wave hlib
  | vorbis lib => exact keeps_vorbis hlib

/-- What a seek to a frame does: it leaves the buffer, and where it succeeds, the decoder is not
finished, and the library is where it was asked to go, or at the end. -/
structure SeeksTo (lib : Backend H) (pcm : List Byte) (offset : H → Nat) (frame : Nat)
    (d : Decoder H) (r : Bool × Decoder H) : Prop where
  bufferSize_eq : r.2.bufferSize = d.bufferSize
  buffer_eq : r.2.buffer = d.buffer
  offset_eq : r.1 = true → offset r.2.handle = min (frame * lib.frameSize) pcm.length
  eof_eq : r.1 = true → r.2.eof = false

theorem seek_frames {lib : FrameLibrary H} (hlib : lib.Plays pcm offset) (n : Nat)
    {backend : Backend H} (hframe : backend.frameSize = 2 * lib.channels) (d : Decoder H) :
    SeeksTo backend pcm offset n d
      ((lib.seekToPcmFrame n d.handle).1, { d with
        handle := (lib.seekToPcmFrame n d.handle).2
        eof := if (lib.seekToPcmFrame n d.handle).1 = true then false else d.eof }) where
  bufferSize_eq := rfl
  buffer_eq := rfl
  offset_eq h := by
    rw [hframe]
    exact hlib.seek_offset n d.handle h
  eof_eq h := if_pos h

theorem seek_wave {lib : Wuff H} (hlib : lib.Plays pcm offset) (n : Nat) (d : Decoder H) :
    SeeksTo (.wave lib) pcm offset n d (WaveDecoder.sought (lib.seek n d.handle) d) := by
  rw [WaveDecoder.sought]
  split_ifs with h
  · exact ⟨rfl, rfl, fun _ => hlib.seek_offset n d.handle h, fun _ => rfl⟩
  · exact ⟨rfl, rfl, fun h => absurd h Bool.false_ne_true, fun h => absurd h Bool.false_ne_true⟩

theorem seek_vorbis {lib : VorbisFile H} {n : Nat} {r : Int × H}
    (hr : r.1 = 0 → offset r.2 = min (n * (lib.channels * 2)) pcm.length) (d : Decoder H) :
    SeeksTo (.vorbis lib) pcm offset n d (VorbisDecoder.sought r d) := by
  rw [VorbisDecoder.sought]
  split_ifs with h
  · exact ⟨rfl, rfl, fun _ => by rw [frameSize_vorbis]; exact hr h, fun _ => rfl⟩
  · exact ⟨rfl, rfl, fun h => absurd h Bool.false_ne_true, fun h => absurd h Bool.false_ne_true⟩

theorem rawSeek_offset {lib : VorbisFile H} (hlib : lib.Plays pcm offset) (d : Decoder H)
    (h : (lib.rawSeek 0 d.handle).1 = 0) :
    offset (lib.rawSeek 0 d.handle).2 = min (0 * (lib.channels * 2)) pcm.length := by
  rw [hlib.rawSeek_offset d.handle h, Nat.zero_mul, Nat.zero_min]

theorem frameAt_zero (rate : Nat) : frameAt 0 rate = 0 := by
  rw [frameAt, zero_mul, Nat.floor_zero]

theorem seek_seeksTo {lib : Backend H} (hlib : lib.Plays pcm offset) (s : ℚ) (d : Decoder H) :
    SeeksTo lib pcm offset (lib.soughtFrame s) d (lib.seek s d) := by
  cases lib with
  | flac lib => exact seek_frames hlib _ (frameSize_flac lib) d
  | mp3 lib => exact seek_frames hlib _ (frameSize_mp3 lib) d
  | wave lib => exact seek_wave hlib _ d
  | vorbis lib =>
    show SeeksTo _ pcm offset (if s ≤ 1 / 1000000 then 0 else frameAt s lib.rate) d
      (VorbisDecoder.seek lib s d)
    rw [VorbisDecoder.seek]
    split_ifs with h
    · exact seek_vorbis (rawSeek_offset hlib d) d
    · exact seek_vorbis (VorbisFile.Plays.timeSeek_offset hlib s d.handle) d

theorem rewind_seeksTo {lib : Backend H} (hlib : lib.Plays pcm offset) (d : Decoder H) :
    SeeksTo lib pcm offset 0 d (lib.rewind d) := by
  cases lib with
  | flac lib =>
    have h : SeeksTo (.flac lib) pcm offset (frameAt 0 lib.sampleRate) d
        (Backend.rewind (.flac lib) d) := seek_frames hlib _ (frameSize_flac lib) d
    rwa [frameAt_zero] at h
  | mp3 lib =>
    have h : SeeksTo (.mp3 lib) pcm offset (frameAt 0 lib.sampleRate) d
        (Backend.rewind (.mp3 lib) d) := seek_frames hlib _ (frameSize_mp3 lib) d
    rwa [frameAt_zero] at h
  | wave lib => exact seek_wave hlib 0 d
  | vorbis lib => exact seek_vorbis (rawSeek_offset hlib d) d

theorem Reached.sized {lib : Backend H} (hlib : lib.Plays pcm offset) {d : Decoder H}
    (hd : Reached lib offset B d) : Sized B d := by
  induction hd with
  | opened _ hbuffer => exact ⟨rfl, hbuffer⟩
  | decode _ h ih => exact keeps_decode hlib _ ih _ _ h
  | @seek d _ s ih =>
    have h := seek_seeksTo hlib s d
    exact ⟨h.bufferSize_eq.trans ih.1, by rw [h.buffer_eq]; exact ih.2⟩
  | @rewind d _ ih =>
    have h := rewind_seeksTo hlib d
    exact ⟨h.bufferSize_eq.trans ih.1, by rw [h.buffer_eq]; exact ih.2⟩

theorem SeeksTo.ready {lib : Backend H} {frame : Nat} {d t : Decoder H}
    (h : SeeksTo lib pcm offset frame d (true, t)) (hd : Sized B d) :
    Ready pcm offset B (min (frame * lib.frameSize) pcm.length) t where
  size_le := Nat.zero_le _
  bufferSize_eq := h.bufferSize_eq.trans hd.1
  buffer_length := (congrArg List.length h.buffer_eq).trans hd.2
  offset_eq := h.offset_eq rfl
  bytes := by rw [take_zero, take_zero]
  eof_eq := h.eof_eq rfl

theorem Starts.ready {lib : Backend H} (hlib : lib.Plays pcm offset) {frame : Nat} {d : Decoder H}
    (hd : Starts lib offset B frame d) :
    Ready pcm offset B (min (frame * lib.frameSize) pcm.length) d := by
  cases hd with
  | opened hstart hbuffer =>
    rw [Nat.zero_mul, Nat.zero_min]
    exact ⟨Nat.zero_le _, rfl, hbuffer, hstart, by rw [take_zero, take_zero], rfl⟩
  | @seek d' _ s hd h =>
    have hseek := seek_seeksTo hlib s d'
    rw [h] at hseek
    exact hseek.ready (hd.sized hlib)
  | @rewind d' _ hd h =>
    have hseek := rewind_seeksTo hlib d'
    rw [h] at hseek
    exact hseek.ready (hd.sized hlib)

/-! ## When nothing is lost -/

/-- It is the decoder for MP3. -/
def Backend.IsMP3 : Backend H → Prop
  | .mp3 _ => True
  | _ => False

section Main

variable {start : Nat} {d : Decoder H}

theorem rounded_eq {f : Nat} (h : f ∣ B) : B / f * f = B := Nat.div_mul_cancel h

theorem le_rounded {f rest : Nat} (hpos : 0 < f) (hrest : f ∣ rest) (h : rest ≤ B) :
    rest ≤ B / f * f := by
  obtain ⟨k, rfl⟩ := hrest
  rw [Nat.mul_comm f k] at h ⊢
  exact Nat.mul_le_mul_right f ((Nat.le_div_iff_mul_le hpos).mpr h)

section

variable {lib : FrameLibrary H} (hlib : lib.Plays pcm offset)
  (hwhole : 2 * lib.channels ∣ pcm.length) (hroom : 2 * lib.channels ≤ B) (hint : B < 2 ^ 31)
  (hstart : 2 * lib.channels ∣ start) (hd : Ready pcm offset B start d)
include hlib hwhole hroom hint hstart hd

theorem lossless_flac_iff :
    Lossless (.flac lib) d (pcm.drop start) ↔
      2 * lib.channels ∣ B ∨ pcm.length - start ≤ B := by
  have hpos := hlib.channels_pos
  have hframe := frameSize_flac lib
  have hgives := decode_flac hlib hint hd
  have hdvd := Nat.dvd_sub hwhole hstart
  by_cases haligned : 2 * lib.channels ∣ B
  · refine iff_of_true ?_ (.inl haligned)
    refine lossless_of_strides (by omega) le_rfl (by rw [hframe]; exact haligned)
      (by rw [hframe]; exact hwhole) (fun start d _ hd => ?_) (by rw [hframe]; exact hstart) hd
    have hstep := decode_flac hlib hint hd
    rw [rounded_eq haligned] at hstep
    have heof : decide (min B (pcm.length - start) < B) = decide (pcm.length - start < B) :=
      decide_eq_decide.mpr (by omega)
    rwa [heof] at hstep
  · have hlt : B / (2 * lib.channels) * (2 * lib.channels) < B :=
      lt_of_le_of_ne (Nat.div_mul_le_self _ _) fun h => haligned (h ▸ Nat.dvd_mul_left _ _)
    rw [decide_eq_true (by omega)] at hgives
    by_cases hfits : pcm.length - start ≤ B
    · refine iff_of_true ?_ (.inr hfits)
      rw [Nat.min_eq_right (le_rounded (by omega) hdvd hfits)] at hgives
      exact lossless_once (by rw [hframe]; exact hdvd) hgives hd
    · refine iff_of_false ?_ (by rintro (h | h) <;> contradiction)
      exact not_lossless_once (by omega) hgives hd

theorem lossless_mp3 : Lossless (.mp3 lib) d (pcm.drop start) := by
  have hpos := hlib.channels_pos
  have hframe := frameSize_mp3 lib
  have hsome : 0 < B / (2 * lib.channels) := Nat.div_pos hroom (by omega)
  exact lossless_of_strides (Nat.mul_pos hsome (by omega)) (Nat.div_mul_le_self _ _)
    (by rw [hframe]; exact Nat.dvd_mul_left _ _) (by rw [hframe]; exact hwhole)
    (fun start d _ hd => decode_mp3 hlib hint hd) (by rw [hframe]; exact hstart) hd

end

theorem lossless_wave_iff {lib : Wuff H} (hlib : lib.Plays pcm offset)
    (hwhole : (Backend.wave lib).frameSize ∣ pcm.length)
    (hroom : (Backend.wave lib).frameSize ≤ B) (hint : B < 2 ^ 31)
    (hstart : (Backend.wave lib).frameSize ∣ start) (hd : Ready pcm offset B start d) :
    Lossless (.wave lib) d (pcm.drop start) ↔
      (Backend.wave lib).frameSize ∣ B ∨ pcm.length - start ≤ B := by
  have hpos : 0 < (Backend.wave lib).frameSize := frameSize_pos hlib
  have hgives := decode_wave hlib hint hd
  have hdvd := Nat.dvd_sub hwhole hstart
  by_cases haligned : (Backend.wave lib).frameSize ∣ B
  · refine iff_of_true ?_ (.inl haligned)
    exact lossless_of_strides (by omega) le_rfl haligned hwhole
      (fun start d _ hd => decode_wave hlib hint hd) hstart hd
  · by_cases hfits : pcm.length - start ≤ B
    · refine iff_of_true ?_ (.inr hfits)
      -- it is less than the buffer has room for, so the end is seen
      have hless : pcm.length - start ≠ B := fun h => haligned (h ▸ hdvd)
      rw [Nat.min_eq_right hfits, decide_eq_true (by omega)] at hgives
      exact lossless_once hdvd hgives hd
    · refine iff_of_false ?_ (by rintro (h | h) <;> contradiction)
      rw [Nat.min_eq_left (by omega)] at hgives
      obtain ⟨t, ht, -⟩ := hgives
      exact not_lossless_first ht (fun h => haligned (Int.natCast_dvd_natCast.mp h.2)) hd.eof_eq

theorem lossless_vorbis_iff {lib : VorbisFile H} (hlib : lib.Plays pcm offset)
    (hwhole : lib.channels * 2 ∣ pcm.length) (hroom : lib.channels * 2 ≤ B)
    (hstart : lib.channels * 2 ∣ start) (hd : Ready pcm offset B start d) :
    Lossless (.vorbis lib) d (pcm.drop start) ↔
      lib.channels * 2 ∣ B ∨ pcm.length - start ≤ B := by
  have hpos := hlib.channels_pos
  have hframe := frameSize_vorbis lib
  have hdvd := Nat.dvd_sub hwhole hstart
  by_cases haligned : lib.channels * 2 ∣ B
  · refine iff_of_true ?_ (.inl haligned)
    exact lossless_of_strides (by omega) le_rfl (by rw [hframe]; exact haligned)
      (by rw [hframe]; exact hwhole)
      (fun start d hstart hd => decode_vorbis hlib hwhole (by rwa [hframe] at hstart)
        (.inl haligned) hd) (by rw [hframe]; exact hstart) hd
  · by_cases hfits : pcm.length - start ≤ B
    · refine iff_of_true ?_ (.inr hfits)
      have hless : pcm.length - start ≠ B := fun h => haligned (h ▸ hdvd)
      have hgives := decode_vorbis hlib hwhole hstart (.inr hfits) hd
      rw [Nat.min_eq_right hfits, decide_eq_true (by omega)] at hgives
      exact lossless_once (by rw [hframe]; exact hdvd) hgives hd
    · refine iff_of_false ?_ (by rintro (h | h) <;> contradiction)
      obtain ⟨n, t, ht, hn⟩ := decode_vorbis_full hlib (by omega) hd
      have ht : (Backend.vorbis lib).decode.result d = some (.ok n, t) := ht
      refine not_lossless_first ht ?_ hd.eof_eq
      rw [hframe]
      rintro ⟨hnonneg, hframes⟩
      rcases hn with rfl | rfl
      · omega
      · exact haligned (Int.natCast_dvd_natCast.mp hframes)

/-- **Decoding until the decoder is finished gives all the data** from where it started, in whole
frames, if and only if the buffer has room for a number of whole frames and no more, or what is
left fits into it; or it is the decoder for MP3. -/
theorem decodeAll_lossless_iff {lib : Backend H} (hlib : lib.Plays pcm offset)
    (hwhole : lib.frameSize ∣ pcm.length) (hroom : lib.frameSize ≤ B) (hint : B < 2 ^ 31)
    {frame : Nat} (hd : Starts lib offset B frame d) :
    Lossless lib d (pcm.drop (frame * lib.frameSize)) ↔
      lib.IsMP3 ∨ lib.frameSize ∣ B ∨ pcm.length - frame * lib.frameSize ≤ B := by
  have hready := hd.ready hlib
  have hstart : lib.frameSize ∣ min (frame * lib.frameSize) pcm.length := by
    rcases Nat.le_total (frame * lib.frameSize) pcm.length with h | h
    · rw [Nat.min_eq_left h]
      exact Nat.dvd_mul_left _ _
    · rw [Nat.min_eq_right h]
      exact hwhole
  have hleft : pcm.length - frame * lib.frameSize =
      pcm.length - min (frame * lib.frameSize) pcm.length := by omega
  rw [drop_eq_drop_min, hleft]
  cases lib with
  | flac lib =>
    rw [frameSize_flac] at hwhole hroom hstart hready ⊢
    rw [lossless_flac_iff hlib hwhole hroom hint hstart hready]
    exact ⟨.inr, fun h => h.resolve_left id⟩
  | mp3 lib =>
    rw [frameSize_mp3] at hwhole hroom hstart hready ⊢
    exact iff_of_true (lossless_mp3 hlib hwhole hroom hint hstart hready) (.inl trivial)
  | wave lib =>
    rw [lossless_wave_iff hlib hwhole hroom hint hstart hready]
    exact ⟨.inr, fun h => h.resolve_left id⟩
  | vorbis lib =>
    rw [frameSize_vorbis] at hwhole hroom hstart hready ⊢
    rw [lossless_vorbis_iff hlib hwhole hroom hstart hready]
    exact ⟨.inr, fun h => h.resolve_left id⟩

end Main

/-! ## Two frames of two channels -/

def twoFramesPcm : List Byte := [1, 2, 3, 4, 5, 6, 7, 8]

/-- A stream of two frames; the handle is the number of the frame. -/
def twoFrames : FrameLibrary Nat where
  channels := 2
  sampleRate := 44100
  readPcmFramesS16 n h :=
    ⟨min n (2 - h), (twoFramesPcm.drop (min (h * 4) 8)).take (n * 4), h + min n (2 - h)⟩
  seekToPcmFrame n _ := (true, n)

theorem twoFrames_plays : twoFrames.Plays twoFramesPcm fun h => min (h * 4) 8 where
  channels_pos := by decide
  aligned h := by
    show 4 ∣ min (h * 4) 8 ∧ min (h * 4) 8 ≤ 8
    omega
  bytes _ _ := rfl
  frames n h := by
    show min n (2 - h) * 4 = ((twoFramesPcm.drop (min (h * 4) 8)).take (n * 4)).length
    rw [List.length_take, List.length_drop]
    show _ = min (n * 4) (8 - min (h * 4) 8)
    omega
  read_offset n h := by
    show min ((h + min n (2 - h)) * 4) 8 =
      min (h * 4) 8 + ((twoFramesPcm.drop (min (h * 4) 8)).take (n * 4)).length
    rw [List.length_take, List.length_drop]
    show _ = min (h * 4) 8 + min (n * 4) (8 - min (h * 4) 8)
    omega
  seek_offset _ _ _ := rfl

/-- A buffer that has room for one frame and a half of another. -/
theorem not_lossless_twoFrames :
    (Backend.flac twoFrames).Plays twoFramesPcm (fun h => min (h * 4) 8) ∧
      (Backend.flac twoFrames).frameSize = 4 ∧
      Starts (.flac twoFrames) (fun h => min (h * 4) 8) 6 0 ⟨0, 6, replicate 6 0, false⟩ ∧
      ¬ Lossless (.flac twoFrames) ⟨0, 6, replicate 6 0, false⟩ twoFramesPcm := by
  have hstart : Starts (.flac twoFrames) (fun h => min (h * 4) 8) 6 0
      ⟨0, 6, replicate 6 0, false⟩ := .opened rfl rfl
  have hplays : (Backend.flac twoFrames).Plays twoFramesPcm fun h => min (h * 4) 8 :=
    twoFrames_plays
  refine ⟨hplays, by decide, hstart, fun h => ?_⟩
  have hready := hstart.ready hplays
  have hiff := lossless_flac_iff twoFrames_plays (by decide) (by decide) (by decide) (by decide)
    hready
  exact absurd (hiff.mp h) (by decide)

/-- A buffer that has room for both frames. -/
theorem decodeAll_lossless_iff_twoFrames :
    Lossless (.flac twoFrames) ⟨0, 8, replicate 8 0, false⟩
      (twoFramesPcm.drop (0 * (Backend.flac twoFrames).frameSize)) :=
  (@decodeAll_lossless_iff Nat twoFramesPcm (fun h => min (h * 4) 8) 8 _ (.flac twoFrames)
    twoFrames_plays (by decide) (by decide) (by decide) 0 (.opened rfl rfl)).mpr (.inr (.inl (by decide)))

end Lhatove.Sound.Lullaby
