import Mathlib.Tactic

/-!
# Decompression

`love::data::zlibCompressor::decompress` for zlib, gzip and raw deflate data: a
buffer is filled, and if it is too small the work starts again with one of twice
the size.

zlib itself and the memory are parameters. What they do may differ from one
attempt to the next. Sizes are numbers below `2 ^ 64`; the stream of zlib counts
in numbers below `2 ^ 32`.

- `decompressLoop_ends`: from a size that is not zero, at most 64 buffers are
  tried;
- `decompressLoop_stuck`: from the size zero, as many as one waits for;
- `decompress_ends_iff`: when there is an answer.
-/

namespace Lhatove.Data

/-- `Compressor::Format` -/
inductive Compressor.Format
  | lz4
  | zlib
  | gzip
  | deflate
  deriving DecidableEq

/-! ## zlib -/

/-- `Z_OK` -/
def zOk : Int := 0

/-- `Z_STREAM_END` -/
def zStreamEnd : Int := 1

/-- `Z_NEED_DICT` -/
def zNeedDict : Int := 2

/-- `Z_DATA_ERROR` -/
def zDataError : Int := -3

/-- `Z_BUF_ERROR` -/
def zBufError : Int := -5

/-- A stream after `inflate(&stream, Z_FINISH)` with room for `capacity` bytes.
With `Z_FINISH`, the status is never `Z_OK`. -/
structure Inflated (capacity : Nat) where
  status : Int
  output : List UInt8
  availIn : Nat
  fits : output.length ≤ capacity
  finish : status ≠ zOk

/-- The room that is left. -/
def Inflated.availOut {capacity : Nat} (stream : Inflated capacity) : Nat :=
  capacity - stream.output.length

/-- What zlib does at each attempt. A buffer that is too small is no matter of
`inflateInit2`. -/
structure Zlib where
  inflateInit2 : (attempt : Nat) → (windowbits : Int) → Int
  init_status : ∀ attempt windowbits, inflateInit2 attempt windowbits ≠ zBufError
  inflate : (attempt : Nat) → (windowbits : Int) → (source : List UInt8) → (capacity : Nat) →
    Inflated capacity
  inflateEnd : (attempt : Nat) → Int

/-- Which `new char[size]` succeed. No array has more bytes than a pointer
difference can count. -/
structure Memory where
  new : (attempt size : Nat) → Bool
  limit : ∀ attempt size, 2 ^ 63 ≤ size → new attempt size = false

/-! ## The compressor -/

/-- `zlibCompressor::isSupported` -/
def isSupported (format : Compressor.Format) : Bool :=
  format = .zlib || format = .gzip || format = .deflate

/-- 15 is the default; adding 32 makes zlib detect the header. -/
def windowbits (format : Compressor.Format) : Int :=
  if format = .deflate then -15 else 15 + 32

/-- `zlibDecompress`: the status, and what is in the first `destLen` bytes. -/
def zlibDecompress (zlib : Zlib) (attempt : Nat) (format : Compressor.Format) (destLen : Nat)
    (source : List UInt8) : Int × List UInt8 :=
  let err := zlib.inflateInit2 attempt (windowbits format)
  if err ≠ zOk then (err, [])
  else
    -- Both sizes are cast to `uInt`.
    let stream := zlib.inflate attempt (windowbits format)
      (source.take (source.length % 2 ^ 32)) (destLen % 2 ^ 32)
    if stream.status ≠ zStreamEnd then
      if stream.status = zNeedDict ∨
          (stream.status = zBufError ∧ 0 < stream.availOut ∧ stream.availIn = 0) then
        (zDataError, stream.output)
      else (stream.status, stream.output)
    else (zlib.inflateEnd attempt, stream.output)

def invalidFormat : String := "Invalid format (expecting zlib or gzip)"

def outOfMemory : String := "Out of memory."

def couldNotDecompress (status : Int) : String :=
  "Could not decompress zlib/gzip-compressed data (error code: " ++ toString status ++ ")."

/-- The loop of `decompress`: the bytes or the text of the exception, or `none`
when `fuel` buffers were too small. -/
def decompressLoop (zlib : Zlib) (memory : Memory) (format : Compressor.Format)
    (source : List UInt8) : (fuel attempt rawsize : Nat) → Option (Except String (List UInt8))
  | 0, _, _ => none
  | fuel + 1, attempt, rawsize =>
    if memory.new attempt rawsize = false then some (.error outOfMemory)
    else
      let (status, bytes) := zlibDecompress zlib attempt format rawsize source
      if status = zOk then some (.ok bytes)
      else if status ≠ zBufError then some (.error (couldNotDecompress status))
      else decompressLoop zlib memory format source fuel (attempt + 1) (rawsize * 2 % 2 ^ 64)

/-- `zlibCompressor::decompress` -/
def decompress (zlib : Zlib) (memory : Memory) (fuel : Nat) (format : Compressor.Format)
    (source : List UInt8) (decompressedSize : Nat) : Option (Except String (List UInt8)) :=
  if isSupported format = false then some (.error invalidFormat)
  else decompressLoop zlib memory format source fuel 0
    (if 0 < decompressedSize then decompressedSize else source.length * 2 % 2 ^ 64)

/-- `lh_decompress` with a format that this compressor supports: the size of the
result is not known. -/
def lhDecompress (zlib : Zlib) (memory : Memory) (fuel : Nat) (format : Compressor.Format)
    (source : List UInt8) : Option (Except String (List UInt8)) :=
  decompress zlib memory fuel format source 0

/-! ## Answers -/

section Answers

variable {zlib : Zlib} {memory : Memory} {format : Compressor.Format} {source : List UInt8}

/-- Either all that zlib wrote up to the end of the stream, or an exception. -/
def Answers (zlib : Zlib) (format : Compressor.Format) (source : List UInt8) :
    Except String (List UInt8) → Prop
  | .ok bytes => ∃ attempt capacity, (zlib.inflate attempt (windowbits format)
      (source.take (source.length % 2 ^ 32)) capacity).status = zStreamEnd ∧
      (zlib.inflate attempt (windowbits format)
        (source.take (source.length % 2 ^ 32)) capacity).output = bytes
  | .error message => message = invalidFormat ∨ message = outOfMemory ∨
      ∃ status, status ≠ zOk ∧ status ≠ zBufError ∧ message = couldNotDecompress status

theorem zlibDecompress_ok {attempt destLen : Nat}
    (h : (zlibDecompress zlib attempt format destLen source).1 = zOk) :
    Answers zlib format source (.ok (zlibDecompress zlib attempt format destLen source).2) := by
  rw [zlibDecompress] at h ⊢
  dsimp only at h ⊢
  split_ifs at h ⊢ with hinit hend herror
  · exact (hinit h).elim
  · exact absurd (show zDataError = zOk from h) (by decide)
  · exact (Inflated.finish _ h).elim
  · exact ⟨attempt, destLen % 2 ^ 32, not_not.mp hend, rfl⟩

variable (zlib memory format source) in
theorem decompressLoop_succ (fuel attempt rawsize : Nat) :
    (∃ answer, decompressLoop zlib memory format source (fuel + 1) attempt rawsize = some answer ∧
      Answers zlib format source answer) ∨
    rawsize < 2 ^ 63 ∧ decompressLoop zlib memory format source (fuel + 1) attempt rawsize =
      decompressLoop zlib memory format source fuel (attempt + 1) (rawsize * 2 % 2 ^ 64) := by
  rw [decompressLoop]
  split_ifs with hmemory
  · exact .inl ⟨_, rfl, .inr (.inl rfl)⟩
  have hok : (zlibDecompress zlib attempt format rawsize source).1 = zOk → _ := zlibDecompress_ok
  rcases hr : zlibDecompress zlib attempt format rawsize source with ⟨status, bytes⟩
  rw [hr] at hok
  dsimp only at hok ⊢
  by_cases hstatus : status = zOk
  · rw [if_pos hstatus]
    exact .inl ⟨_, rfl, hok hstatus⟩
  rw [if_neg hstatus]
  by_cases herror : status = zBufError
  · rw [if_neg (not_not.mpr herror)]
    refine .inr ⟨?_, rfl⟩
    by_contra hlarge
    exact hmemory (memory.limit attempt rawsize (not_lt.mp hlarge))
  · rw [if_pos herror]
    exact .inl ⟨_, rfl, .inr (.inr ⟨status, hstatus, herror, rfl⟩)⟩

/-- **From a size that is not zero** the loop ends: a buffer that is too small is
followed by one of twice its size, up to what cannot be had. -/
theorem decompressLoop_ends (zlib : Zlib) (memory : Memory) (format : Compressor.Format)
    (source : List UInt8) {k rawsize : Nat} (hrawsize : 2 ^ 63 ≤ rawsize * 2 ^ k)
    (attempt : Nat) : ∃ answer,
      decompressLoop zlib memory format source (k + 1) attempt rawsize = some answer ∧
      Answers zlib format source answer := by
  induction k generalizing rawsize attempt with
  | zero =>
    rcases decompressLoop_succ zlib memory format source 0 attempt rawsize with hanswer | ⟨hsmall, -⟩
    · exact hanswer
    · omega
  | succ k ih =>
    rcases decompressLoop_succ zlib memory format source (k + 1) attempt rawsize
      with hanswer | ⟨hsmall, hnext⟩
    · exact hanswer
    · rw [hnext, Nat.mod_eq_of_lt (by omega)]
      exact ih (by rw [mul_assoc, ← pow_succ']; exact hrawsize) (attempt + 1)

/-- Nothing in the way of another attempt: memory, and a stream. -/
def Unhindered (zlib : Zlib) (memory : Memory) (format : Compressor.Format) : Prop :=
  ∀ attempt, memory.new attempt 0 = true ∧ zlib.inflateInit2 attempt (windowbits format) = zOk

theorem zlibDecompress_stuck {attempt : Nat}
    (hempty : ∀ attempt windowbits, (zlib.inflate attempt windowbits [] 0).status = zBufError)
    (hinit : zlib.inflateInit2 attempt (windowbits format) = zOk)
    (hsource : source.length % 2 ^ 63 = 0) :
    (zlibDecompress zlib attempt format 0 source).1 = zBufError := by
  have hnone : source.take (source.length % 2 ^ 32) = [] := by
    rw [show source.length % 2 ^ 32 = 0 by omega]
    rfl
  have hstatus := hempty attempt (windowbits format)
  have hroom : ¬ 0 < (zlib.inflate attempt (windowbits format) [] 0).availOut := by
    rw [Inflated.availOut]
    omega
  rw [zlibDecompress, hinit, hnone]
  simp only [Nat.zero_mod]
  rw [if_neg (not_not.mpr rfl), if_pos (by rw [hstatus]; decide), if_neg, hstatus]
  rintro (hdict | ⟨-, hout, -⟩)
  · rw [hstatus] at hdict
    exact absurd hdict (by decide)
  · exact hroom hout

/-- **From the size zero** the loop does not end: the next buffer is of the size
zero again. -/
theorem decompressLoop_stuck
    (hempty : ∀ attempt windowbits, (zlib.inflate attempt windowbits [] 0).status = zBufError)
    (hfree : Unhindered zlib memory format) (hsource : source.length % 2 ^ 63 = 0)
    (fuel attempt : Nat) :
    decompressLoop zlib memory format source fuel attempt 0 = none := by
  induction fuel generalizing attempt with
  | zero => rfl
  | succ fuel ih =>
    have hstatus := zlibDecompress_stuck hempty (hfree attempt).2 hsource
    rw [decompressLoop, (hfree attempt).1, if_neg (by decide)]
    dsimp only
    rw [hstatus, if_neg (by decide), if_neg (not_not.mpr rfl)]
    exact ih (attempt + 1)

theorem decompressLoop_hindered (source : List UInt8) {last : Nat}
    (hlast : ¬ (memory.new last 0 = true ∧ zlib.inflateInit2 last (windowbits format) = zOk))
    {k attempt : Nat} (hk : attempt + k = last) : ∃ answer,
      decompressLoop zlib memory format source (k + 1) attempt 0 = some answer ∧
      Answers zlib format source answer := by
  induction k generalizing attempt with
  | zero =>
    subst hk
    rw [decompressLoop]
    by_cases hmemory : memory.new attempt 0 = false
    · exact ⟨_, if_pos hmemory, .inr (.inl rfl)⟩
    · have hinit : zlib.inflateInit2 attempt (windowbits format) ≠ zOk :=
        fun hok => hlast ⟨(Bool.not_eq_false _).mp hmemory, hok⟩
      have herror := zlib.init_status attempt (windowbits format)
      have hr : zlibDecompress zlib attempt format 0 source =
          (zlib.inflateInit2 attempt (windowbits format), []) := if_pos hinit
      rw [if_neg hmemory, hr]
      dsimp only
      rw [if_neg hinit, if_pos herror]
      exact ⟨_, rfl, .inr (.inr ⟨_, hinit, herror, rfl⟩)⟩
  | succ k ih =>
    rcases decompressLoop_succ zlib memory format source (k + 1) attempt 0 with hanswer | ⟨-, hnext⟩
    · exact hanswer
    · rw [hnext]
      exact ih (by omega)

/-- **When there is an answer**: unless a supported format is tried with the size
zero, which comes of no size being given and no data, and nothing else stops it. -/
theorem decompress_ends_iff
    (hempty : ∀ attempt windowbits, (zlib.inflate attempt windowbits [] 0).status = zBufError)
    (decompressedSize : Nat) :
    (∃ fuel answer, decompress zlib memory fuel format source decompressedSize = some answer ∧
      Answers zlib format source answer) ↔
    ¬ (isSupported format = true ∧ decompressedSize = 0 ∧ source.length % 2 ^ 63 = 0 ∧
      Unhindered zlib memory format) := by
  constructor
  · rintro ⟨fuel, answer, hanswer, -⟩ ⟨hformat, rfl, hsource, hfree⟩
    rw [decompress, hformat, if_neg (by decide), if_neg (lt_irrefl 0),
      show source.length * 2 % 2 ^ 64 = 0 by omega, decompressLoop_stuck hempty hfree hsource]
      at hanswer
    cases hanswer
  · intro hstuck
    by_cases hformat : isSupported format = false
    · exact ⟨0, _, if_pos hformat, .inl rfl⟩
    rw [Bool.not_eq_false] at hformat
    have hdef : ∀ fuel, decompress zlib memory fuel format source decompressedSize =
        decompressLoop zlib memory format source fuel 0
          (if 0 < decompressedSize then decompressedSize else source.length * 2 % 2 ^ 64) :=
      fun fuel => if_neg (by rw [hformat]; decide)
    by_cases hsize : (if 0 < decompressedSize then decompressedSize
        else source.length * 2 % 2 ^ 64) = 0
    · -- All buffers are empty: the loop ends where zlib or the memory stops it.
      obtain ⟨hnone, hsource⟩ : decompressedSize = 0 ∧ source.length % 2 ^ 63 = 0 := by
        split_ifs at hsize <;> omega
      have hlast : ∃ last, ¬ (memory.new last 0 = true ∧
          zlib.inflateInit2 last (windowbits format) = zOk) :=
        not_forall.mp fun hfree => hstuck ⟨hformat, hnone, hsource, hfree⟩
      obtain ⟨last, hlast⟩ := hlast
      obtain ⟨answer, hanswer⟩ := decompressLoop_hindered source hlast (Nat.zero_add last)
      refine ⟨last + 1, answer, (hdef _).trans ?_, hanswer.2⟩
      rw [hsize]
      exact hanswer.1
    · have hlarge : 2 ^ 63 ≤ (if 0 < decompressedSize then decompressedSize
          else source.length * 2 % 2 ^ 64) * 2 ^ 63 :=
        Nat.le_mul_of_pos_left _ (Nat.pos_of_ne_zero hsize)
      obtain ⟨answer, hanswer⟩ := decompressLoop_ends zlib memory format source hlarge 0
      exact ⟨64, answer, (hdef 64).trans hanswer.1, hanswer.2⟩

end Answers

/-! ### Data of no bytes -/

/-- zlib for data of no bytes: there is never enough of it. -/
def noBytes : Zlib where
  inflateInit2 _ _ := zOk
  init_status _ _ := by decide
  inflate _ _ source _ := ⟨zBufError, [], source.length, Nat.zero_le _, by decide⟩
  inflateEnd _ := zOk

/-- Memory for all arrays that a program can count the bytes of. -/
def addressable : Memory where
  new _ size := decide (size < 2 ^ 63)
  limit _ _ hsize := decide_eq_false (not_lt.mpr hsize)

theorem decompress_ends_noBytes : ∃ fuel answer,
    decompress noBytes addressable fuel .zlib [] 1 = some answer ∧
    Answers noBytes .zlib [] answer :=
  (decompress_ends_iff (fun _ _ => rfl) 1).mpr fun hstuck => absurd hstuck.2.1 (by decide)

/-- `love.data.decompress("zlib", "")` does not return. -/
theorem lhDecompress_noBytes :
    ¬ ∃ fuel answer, lhDecompress noBytes addressable fuel .zlib [] = some answer := by
  rintro ⟨fuel, answer, hanswer⟩
  have hstuck : lhDecompress noBytes addressable fuel .zlib [] = none :=
    decompressLoop_stuck (fun _ _ => rfl) (fun _ => ⟨rfl, rfl⟩) rfl fuel 0
  rw [hstuck] at hanswer
  cases hanswer

end Lhatove.Data
