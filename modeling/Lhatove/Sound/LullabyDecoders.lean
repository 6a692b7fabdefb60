import Lhatove.Lib.Bits
import Lhatove.Lib.Draining

/-!
# Decoders

`decode`, `seek` and `rewind` of the decoders of `love::sound::lullaby`, over the libraries that
decode.

- What a library makes of a handle is a function of it; `Plays` says what is known of it, for a
  stream without errors: which bytes it gives, and where it is then.
- Times are fractions; a `double` is not rounded.
- The streams that the libraries read from, what their constructors read to find out about a
  file, and durations are left out.
-/

namespace Lhatove.Sound.Lullaby

/-- What is kept of a number as an `int` -/
def toInt (n : Nat) : Int := (n : Int).bmod (2 ^ 32)

/-- `Decoder`, with a library's handle. -/
structure Decoder (H : Type) where
  handle : H
  bufferSize : Nat
  buffer : List Byte
  eof : Bool

/-- The frame that a time is in: `(uint64) (s * sampleRate)` -/
def frameAt (s : ℚ) (sampleRate : Nat) : Nat := ⌊s * sampleRate⌋₊

variable {H : Type}

/-! ## Libraries -/

/-- What `read_pcm_frames_s16` answers, and what it puts into the buffer. -/
structure FrameRead (H : Type) where
  frames : Nat
  bytes : List Byte
  handle : H

/-- `dr_flac` and `dr_mp3`: samples have 16 bits. -/
structure FrameLibrary (H : Type) where
  channels : Nat
  sampleRate : Nat
  readPcmFramesS16 : Nat → H → FrameRead H
  seekToPcmFrame : Nat → H → Bool × H

/-- What `wuff_read` answers, and what it puts into the buffer: as many bytes as it says. -/
structure WuffRead (H : Type) where
  status : Int
  bytes : List Byte
  handle : H

/-- `Wuff`, with what `wuff_stream_info` tells. -/
structure Wuff (H : Type) where
  channels : Nat
  sampleRate : Nat
  bitsPerSample : Nat
  read : Nat → H → WuffRead H
  seek : Nat → H → Int × H

/-- What `ov_read` answers, and what it puts into the buffer. -/
structure VorbisRead (H : Type) where
  result : Int
  bytes : List Byte
  handle : H

/-- `libvorbisfile`: samples are read with 16 bits. -/
structure VorbisFile (H : Type) where
  channels : Nat
  rate : Nat
  read : Nat → H → VorbisRead H
  rawSeek : Nat → H → Int × H
  timeSeek : ℚ → H → Int × H

def OV_HOLE : Int := -3
def OV_EREAD : Int := -128
def OV_EINVAL : Int := -131

/-! ## `FLACDecoder` -/

namespace FLACDecoder

variable (flac : FrameLibrary H)

def decode : LoopM Empty (Decoder H) Int := do
  let d ← LoopM.get
  let r := flac.readPcmFramesS16 (d.bufferSize / 2 / flac.channels) d.handle
  let read := r.frames * (2 * flac.channels)
  LoopM.set { d with
    handle := r.handle
    buffer := overwrite d.buffer 0 r.bytes
    eof := d.eof || decide (toInt read < d.bufferSize) }
  return toInt read

def seek (s : ℚ) (d : Decoder H) : Bool × Decoder H :=
  let r := flac.seekToPcmFrame (frameAt s flac.sampleRate) d.handle
  (r.1, { d with handle := r.2, eof := if r.1 = true then false else d.eof })

def rewind (d : Decoder H) : Bool × Decoder H := seek flac 0 d

def getBitDepth : Nat := 16

end FLACDecoder

/-! ## `MP3Decoder` -/

namespace MP3Decoder

variable (mp3 : FrameLibrary H)

def decode : LoopM Empty (Decoder H) Int := do
  let d ← LoopM.get
  let maxRead := d.bufferSize / 2 / mp3.channels
  let r := mp3.readPcmFramesS16 maxRead d.handle
  let read := toInt r.frames
  LoopM.set { d with
    handle := r.handle
    buffer := overwrite d.buffer 0 r.bytes
    eof := d.eof || decide (read < maxRead) }
  return (read * 2 * mp3.channels).bmod (2 ^ 32)

def seek (s : ℚ) (d : Decoder H) : Bool × Decoder H :=
  let r := mp3.seekToPcmFrame (frameAt s mp3.sampleRate) d.handle
  (r.1, { d with handle := r.2, eof := if r.1 = true then false else d.eof })

def rewind (d : Decoder H) : Bool × Decoder H := seek mp3 0 d

def getBitDepth : Nat := 16

end MP3Decoder

/-! ## `WaveDecoder` -/

namespace WaveDecoder

variable (wuff : Wuff H)

/-- One turn of the loop of `decode`; its variable is `size`. -/
def decodeTurn (size : Nat) : LoopM Empty (Decoder H) (Nat ⊕ Int) := do
  let d ← LoopM.get
  if size < d.bufferSize then
    let r := wuff.read (d.bufferSize - size) d.handle
    LoopM.set { d with handle := r.handle, buffer := overwrite d.buffer size r.bytes }
    if r.status < 0 then
      return .inr 0
    else if r.bytes.length = 0 then
      LoopM.modify fun d => { d with eof := true }
      return .inr (toInt size)
    else
      return .inl (size + r.bytes.length)
  else
    return .inr (toInt size)

def decode : LoopM Empty (Decoder H) Int := LoopM.repeatM (decodeTurn wuff) 0

/-- What `seek` and `rewind` do with what `wuff_seek` answers. -/
def sought (r : Int × H) (d : Decoder H) : Bool × Decoder H :=
  if 0 ≤ r.1 then (true, { d with handle := r.2, eof := false })
  else (false, { d with handle := r.2 })

def seek (s : ℚ) (d : Decoder H) : Bool × Decoder H :=
  sought (wuff.seek (frameAt s wuff.sampleRate) d.handle) d

def rewind (d : Decoder H) : Bool × Decoder H := sought (wuff.seek 0 d.handle) d

def getBitDepth : Nat := if wuff.bitsPerSample = 8 then 8 else 16

end WaveDecoder

/-! ## `VorbisDecoder` -/

namespace VorbisDecoder

variable (vorbis : VorbisFile H)

/-- One turn of the loop of `decode`; its variable is `size`. -/
def decodeTurn (size : Nat) : LoopM Empty (Decoder H) (Nat ⊕ Int) := do
  let d ← LoopM.get
  if size < d.bufferSize then
    let r := vorbis.read (d.bufferSize - size) d.handle
    LoopM.set { d with handle := r.handle, buffer := overwrite d.buffer size r.bytes }
    if r.result = OV_HOLE then
      return .inl size
    else if r.result ≤ OV_EREAD then
      return .inr (-1)
    else if r.result = 0 then
      LoopM.modify fun d => { d with eof := true }
      return .inr size
    else if 0 < r.result then
      return .inl (size + r.result.toNat)
    else
      -- an answer that none of the conditions is about
      return .inl size
  else
    return .inr size

def decode : LoopM Empty (Decoder H) Int := LoopM.repeatM (decodeTurn vorbis) 0

/-- What `seek` and `rewind` do with what the library answers. -/
def sought (r : Int × H) (d : Decoder H) : Bool × Decoder H :=
  if r.1 = 0 then (true, { d with handle := r.2, eof := false })
  else (false, { d with handle := r.2 })

def seek (s : ℚ) (d : Decoder H) : Bool × Decoder H :=
  if s ≤ 1 / 1000000 then sought (vorbis.rawSeek 0 d.handle) d
  else sought (vorbis.timeSeek s d.handle) d

def rewind (d : Decoder H) : Bool × Decoder H := sought (vorbis.rawSeek 0 d.handle) d

def getBitDepth : Nat := 16

end VorbisDecoder

/-! ## Any of them -/

/-- The decoders, each with its library. -/
inductive Backend (H : Type)
  | flac (flac : FrameLibrary H)
  | mp3 (mp3 : FrameLibrary H)
  | wave (wuff : Wuff H)
  | vorbis (vorbis : VorbisFile H)

namespace Backend

def getChannelCount : Backend H → Nat
  | flac lib => lib.channels
  | mp3 lib => lib.channels
  | wave lib => lib.channels
  | vorbis lib => lib.channels

def getBitDepth : Backend H → Nat
  | flac _ => FLACDecoder.getBitDepth
  | mp3 _ => MP3Decoder.getBitDepth
  | wave lib => WaveDecoder.getBitDepth lib
  | vorbis _ => VorbisDecoder.getBitDepth

def decode : Backend H → LoopM Empty (Decoder H) Int
  | flac lib => FLACDecoder.decode lib
  | mp3 lib => MP3Decoder.decode lib
  | wave lib => WaveDecoder.decode lib
  | vorbis lib => VorbisDecoder.decode lib

def seek (s : ℚ) : Backend H → Decoder H → Bool × Decoder H
  | flac lib => FLACDecoder.seek lib s
  | mp3 lib => MP3Decoder.seek lib s
  | wave lib => WaveDecoder.seek lib s
  | vorbis lib => VorbisDecoder.seek lib s

def rewind : Backend H → Decoder H → Bool × Decoder H
  | flac lib => FLACDecoder.rewind lib
  | mp3 lib => MP3Decoder.rewind lib
  | wave lib => WaveDecoder.rewind lib
  | vorbis lib => VorbisDecoder.rewind lib

/-- The bytes of a sample of each channel. -/
def frameSize (lib : Backend H) : Nat := lib.getChannelCount * (lib.getBitDepth / 8)

/-- The frame that is sought with `seek`. -/
def soughtFrame (s : ℚ) : Backend H → Nat
  | flac lib => frameAt s lib.sampleRate
  | mp3 lib => frameAt s lib.sampleRate
  | wave lib => frameAt s lib.sampleRate
  | vorbis lib => if s ≤ 1 / 1000000 then 0 else frameAt s lib.rate

/-- `decode`, with the bytes that it leaves at the start of the buffer. -/
def chunk (lib : Backend H) : LoopM Empty (Decoder H) (Int × List Byte) := do
  let n ← lib.decode
  let d ← LoopM.get
  return (n, d.buffer.take n.toNat)

/-- `decode` until `isFinished`. -/
def decodeAll (lib : Backend H) : LoopM Empty (Decoder H) (List (Int × List Byte)) :=
  LoopM.drain lib.chunk Decoder.eof

end Backend

/-! ## What the libraries are known to do -/

section Plays

variable (pcm : List Byte) (offset : H → Nat)

/-- The library plays `pcm`: a reading gives the frames asked for unless the stream ends, and a
seek goes to the frame asked for, or to the end. -/
structure FrameLibrary.Plays (lib : FrameLibrary H) : Prop where
  channels_pos : 0 < lib.channels
  aligned : ∀ h, 2 * lib.channels ∣ offset h ∧ offset h ≤ pcm.length
  bytes : ∀ n h, (lib.readPcmFramesS16 n h).bytes =
    (pcm.drop (offset h)).take (n * (2 * lib.channels))
  frames : ∀ n h, (lib.readPcmFramesS16 n h).frames * (2 * lib.channels) =
    (lib.readPcmFramesS16 n h).bytes.length
  read_offset : ∀ n h, offset (lib.readPcmFramesS16 n h).handle =
    offset h + (lib.readPcmFramesS16 n h).bytes.length
  seek_offset : ∀ n h, (lib.seekToPcmFrame n h).1 = true →
    offset (lib.seekToPcmFrame n h).2 = min (n * (2 * lib.channels)) pcm.length

/-- A reading gives at least one byte unless the stream ends. -/
structure Wuff.Plays (lib : Wuff H) : Prop where
  channels_pos : 0 < lib.channels
  offset_le : ∀ h, offset h ≤ pcm.length
  status : ∀ n h, 0 < n → 0 ≤ (lib.read n h).status
  room : ∀ n h, (lib.read n h).bytes.length ≤ n
  bytes : ∀ n h, (lib.read n h).bytes <+: pcm.drop (offset h)
  some : ∀ n h, 0 < n → (lib.read n h).bytes = [] → offset h = pcm.length
  read_offset : ∀ n h, offset (lib.read n h).handle = offset h + (lib.read n h).bytes.length
  seek_offset : ∀ n h, 0 ≤ (lib.seek n h).1 →
    offset (lib.seek n h).2 =
      min (n * (lib.channels * (WaveDecoder.getBitDepth lib / 8))) pcm.length

/-- A reading gives at least one frame unless the stream ends, and whole frames. Where there is
no room for one, there may be an error or part of one. -/
structure VorbisFile.Plays (lib : VorbisFile H) : Prop where
  channels_pos : 0 < lib.channels
  offset_le : ∀ h, offset h ≤ pcm.length
  finished : ∀ n h, 0 < n → offset h = pcm.length →
    (lib.read n h).result = 0 ∧ (lib.read n h).bytes = []
  read : ∀ n h, 0 < n → offset h < pcm.length →
    0 < (lib.read n h).result ∨ n < lib.channels * 2 ∧ (lib.read n h).result ≤ OV_EREAD
  room : ∀ n h, (lib.read n h).bytes.length ≤ n
  bytes : ∀ n h, 0 ≤ (lib.read n h).result → (lib.read n h).bytes <+: pcm.drop (offset h) ∧
    (lib.read n h).bytes.length = (lib.read n h).result
  whole : ∀ n h, lib.channels * 2 ≤ n → lib.channels * 2 ∣ offset h →
    lib.channels * 2 ∣ (lib.read n h).bytes.length
  read_offset : ∀ n h, 0 ≤ (lib.read n h).result →
    offset (lib.read n h).handle = offset h + (lib.read n h).bytes.length
  rawSeek_offset : ∀ h, (lib.rawSeek 0 h).1 = 0 → offset (lib.rawSeek 0 h).2 = 0
  timeSeek_offset : ∀ s h, (lib.timeSeek s h).1 = 0 →
    offset (lib.timeSeek s h).2 = min (frameAt s lib.rate * (lib.channels * 2)) pcm.length

/-- The library of a decoder plays `pcm`. -/
def Backend.Plays : Backend H → Prop
  | .flac lib => lib.Plays pcm offset
  | .mp3 lib => lib.Plays pcm offset
  | .wave lib => lib.Plays pcm offset
  | .vorbis lib => lib.Plays pcm offset

end Plays

end Lhatove.Sound.Lullaby
