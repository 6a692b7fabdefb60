import Lhatove.Lib.Bits

/-!
# Sound data

`love::sound::SoundData`: its constructors, `copyFrom` and `slice`.

- What leaves `int` or a buffer is not defined, and nothing is said of what a program does then.
- Samples are read and written as numbers of any type.
- What memory there is for is any function; nothing is of 2 ^ 63 bytes. What is left over of a
  buffer is left out.
-/

namespace Lhatove.Sound

/-- How a call ends. -/
inductive Call (α : Type)
  | undefined
  | threw (what : String)
  | returned (value : α)

namespace Call

variable {α β : Type}

def bind (call : Call α) (f : α → Call β) : Call β :=
  match call with
  | .undefined => .undefined
  | .threw what => .threw what
  | .returned value => f value

@[simp] theorem returned_bind (value : α) (f : α → Call β) : (returned value).bind f = f value :=
  rfl

end Call

/-- The numbers of an `int`. -/
def IsInt (x : Int) : Prop := -2 ^ 31 ≤ x ∧ x < 2 ^ 31

instance (x : Int) : Decidable (IsInt x) := inferInstanceAs (Decidable (_ ∧ _))

/-- A result of type `int`. -/
def int (x : Int) : Call Int := if IsInt x then .returned x else .undefined

/-- A number as a `size_t` -/
def toSize (x : Int) : Nat := (x % 2 ^ 64).toNat

/-- What there is memory for. -/
structure Memory where
  canAllocate : Nat → Bool
  bounded : ∀ n, canAllocate n = true → n < 2 ^ 63

structure SoundData where
  data : List Byte
  sampleRate : Int
  bitDepth : Int
  channels : Int

/-- What is decoded, piece by piece. -/
structure Decoder where
  chunks : List (List Byte)
  bitDepth : Int
  channels : Int
  sampleRate : Int

/-- What samples are as numbers. -/
structure SampleFormat (F : Type) where
  decode8 : Byte → F
  decode16 : BitVec 16 → F
  encode8 : F → Byte
  encode16 : F → BitVec 16

namespace SampleFormat

variable {F : Type} (format : SampleFormat F)

def decode (bitDepth : Int) (bytes : List Byte) : F :=
  if bitDepth = 16 then format.decode16 (loadLE 16 bytes) else format.decode8 (bytes.getD 0 0)

def encode (bitDepth : Int) (sample : F) : List Byte :=
  if bitDepth = 16 then storeLE 2 (format.encode16 sample) else [format.encode8 sample]

end SampleFormat

/-- The bytes of a sample. -/
def width (bitDepth : Int) : Nat := bitDepth.toNat / 8

namespace SoundData

/-! ## Constructors -/

/-- `load`, from the bytes that there are at a pointer, or of silence -/
def load (memory : Memory) (samples sampleRate bitDepth channels : Int)
    (newData : Option (List Byte)) : Call SoundData :=
  if samples ≤ 0 then .threw s!"Invalid sample count: {samples}"
  else if sampleRate ≤ 0 then .threw s!"Invalid sample rate: {sampleRate}"
  else if bitDepth ≠ 8 ∧ bitDepth ≠ 16 then .threw s!"Invalid bit depth: {bitDepth}"
  else if channels ≤ 0 then .threw s!"Invalid channel count: {channels}"
  else
    (int (samples * (bitDepth / 8))).bind fun product =>
    (int (product * channels)).bind fun size =>
    -- the size is never too big for a `size_t`
    if 2 ^ 64 - 1 < samples * (bitDepth / 8 * channels) then .threw "Data is too big!"
    else if memory.canAllocate size.toNat = false then .threw "Not enough memory."
    else
      match newData with
      | none =>
        .returned ⟨List.replicate size.toNat (if bitDepth = 8 then 128 else 0), sampleRate, bitDepth,
          channels⟩
      | some bytes =>
        if size.toNat ≤ bytes.length then
          .returned ⟨bytes.take size.toNat, sampleRate, bitDepth, channels⟩
        else .undefined

/-- The loop over what is decoded. -/
def decodeLoop (memory : Memory) : List (List Byte) → List Byte → Call (List Byte)
  | [], data => .returned data
  | chunk :: chunks, data =>
    if memory.canAllocate (data.length + chunk.length) = false then .threw "Not enough memory."
    else decodeLoop memory chunks (data ++ chunk)

def ofDecoder (memory : Memory) (decoder : Decoder) : Call SoundData :=
  if decoder.bitDepth ≠ 8 ∧ decoder.bitDepth ≠ 16 then
    .threw s!"Invalid bit depth: {decoder.bitDepth}"
  else
    (decodeLoop memory decoder.chunks []).bind fun data =>
      .returned ⟨data, decoder.sampleRate, decoder.bitDepth, decoder.channels⟩

def getSampleCount (d : SoundData) : Int :=
  ((d.data.length / d.channels.toNat / width d.bitDepth : Nat) : Int).bmod (2 ^ 32)

/-! ## Samples -/

/-- The bytes of the sample at an index. -/
def sampleBytes (d : SoundData) (i : Nat) : List Byte :=
  (d.data.drop (width d.bitDepth * i)).take (width d.bitDepth)

variable {F : Type} (format : SampleFormat F)

def getSample (d : SoundData) (i : Int) : Call F :=
  if i < 0 ∨ d.data.length / width d.bitDepth ≤ i.toNat then
    .threw "Attempt to get out-of-range sample!"
  else .returned (format.decode d.bitDepth (d.sampleBytes i.toNat))

def setSample (d : SoundData) (i : Int) (sample : F) : Call SoundData :=
  if i < 0 ∨ d.data.length / width d.bitDepth ≤ i.toNat then
    .threw "Attempt to set out-of-range sample!"
  else
    .returned { d with
      data := overwrite d.data (width d.bitDepth * i.toNat) (format.encode d.bitDepth sample) }

/-! ## Copies -/

/-- The loop of `copyFrom`, where the bit depths are not the same. -/
def copyLoop (src : SoundData) (srcStart dstStart : Int) :
    Nat → Int → SoundData → Call SoundData
  | 0, _, dst => .returned dst
  | left + 1, i, dst =>
    (int (srcStart * dst.channels)).bind fun first =>
    (int (first + i)).bind fun index =>
    (src.getSample format index).bind fun sample =>
    (int (dstStart * dst.channels)).bind fun first =>
    (int (first + i)).bind fun index =>
    (dst.setSample format index sample).bind fun dst =>
      copyLoop src srcStart dstStart left (i + 1) dst

/-- `memmove`; `memcpy` does the same where nothing overlaps. -/
def memmove (dst : List Byte) (offset : Nat) (src : List Byte) (srcOffset n : Nat) :
    Call (List Byte) :=
  if offset + n ≤ dst.length ∧ srcOffset + n ≤ src.length then
    .returned (overwrite dst offset ((src.drop srcOffset).take n))
  else .undefined

/-- The source is another object, or the same. -/
def copyFrom (dst : SoundData) (other : Option SoundData) (srcStart count dstStart : Int) :
    Call SoundData :=
  let src := other.getD dst
  if dst.channels ≠ src.channels then .threw "Channel count mismatch!"
  else
    let bytesPerSample := dst.channels.toNat * dst.bitDepth.toNat / 8
    let srcBytesPerSample := src.channels.toNat * src.bitDepth.toNat / 8
    if dstStart < 0 then .threw "Destination out-of-range!"
    else
      (int (dstStart + count)).bind fun dstEnd =>
      if dst.data.length < toSize dstEnd * bytesPerSample % 2 ^ 64 then
        .threw "Destination out-of-range!"
      else if srcStart < 0 then .threw "Source out-of-range!"
      else
        (int (srcStart + count)).bind fun srcEnd =>
        if src.data.length < toSize srcEnd * srcBytesPerSample % 2 ^ 64 then
          .threw "Source out-of-range!"
        else if dst.bitDepth ≠ src.bitDepth then
          (int (count * dst.channels)).bind fun n =>
            copyLoop format src srcStart dstStart n.toNat 0 dst
        else
          (memmove dst.data (toSize dstStart * bytesPerSample % 2 ^ 64) src.data
            (toSize srcStart * bytesPerSample % 2 ^ 64)
            (toSize count * bytesPerSample % 2 ^ 64)).bind fun data =>
              .returned { dst with data }

def slice (memory : Memory) (d : SoundData) (start length : Int) : Call SoundData :=
  let totalSamples := d.getSampleCount
  if length = 0 then .threw "Invalid slice length: 0"
  else
    (if length < 0 then int (totalSamples - start) else .returned length).bind fun length =>
    if start < 0 then .threw "Attempt to slice at out-of-range position!"
    else
      (int (start + length)).bind fun stop =>
      if totalSamples < stop then .threw "Attempt to slice at out-of-range position!"
      else
        (int (start * d.channels)).bind fun offset =>
        (int (offset * d.bitDepth)).bind fun offset =>
          load memory length d.sampleRate d.bitDepth d.channels
            (some (d.data.drop (offset / 8).toNat))

end SoundData

end Lhatove.Sound
