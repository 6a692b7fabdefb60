import Lhatove.Filesystem.NativeFile
import Lhatove.Lib.Search

/-!
# Archives behind which there is more

`love::filesystem::physfs::StripSuffixIo`, which PhysFS is given where an archive does not
end where its file does.

- The file below is never given a buffer, and a read of its stream gives all the bytes
  there are up to the size asked for, as SDL's streams of files do.
- The contents of the files do not change.
-/

namespace Lhatove.Filesystem

open NativeFile

/-- The codes that are given to `PHYSFS_setErrorCode` here. -/
inductive ErrorCode
  | ok
  | osError
  | readOnly
  deriving DecidableEq

/-- `StripSuffixIo`. With an open file comes what is in it. -/
structure StripSuffixIo where
  filename : String
  file : Option (FileContent × NativeFile)
  strippedLength : Int := -1

/-- A file without a buffer, at a position of its stream. -/
def NativeFile.unbuffered (position : Nat) : NativeFile := { NativeFile.opened with position }

section Unbuffered

variable {content : FileContent} {position size : Nat}

theorem ioRead_whole :
    ioRead content position size size = (content.bytes.drop position).take size := by
  have hcount : readCount content position size size =
      min size (content.bytes.length - position) := by
    rw [readCount]
    split_ifs <;> omega
  rw [ioRead, hcount, ← List.length_drop, ← List.take_eq_take_min]

theorem NativeFile.unbuffered_read (size : Nat) :
    (unbuffered position).read content size (fun _ => size) =
      (.read ((content.bytes.drop position).take size).length
        ((content.bytes.drop position).take size),
        .unbuffered (position + ((content.bytes.drop position).take size).length)) := by
  rw [NativeFile.read, if_neg (by omega)]
  simp only [Int.toNat_natCast, ioRead_whole]
  rfl

theorem ioSeek_start (offset : Int) : ioSeek content position offset .start =
    if 0 ≤ offset ∧ offset < 2 ^ 63 then some offset.toNat else none := by
  rw [ioSeek]
  simp only [zero_add]

theorem NativeFile.unbuffered_seek (offset : Int) :
    (unbuffered position).seek content offset .start =
      match ioSeek content position offset .start with
      | none => some (false, .unbuffered position)
      | some position => some (true, .unbuffered position) := rfl

theorem NativeFile.bufferedRead_count_le (answers : Nat → Nat) (f : NativeFile) (size call : Nat) :
    (f.bufferedRead content answers size call).1 ≤ size := by
  induction f, size, call using bufferedRead.induct content answers with
  | case1 f call =>
    rw [bufferedRead, if_pos rfl]
  | case2 f size call hsize havailable =>
    rename_i copy _ _ _ _ ih
    rw [bufferedRead, if_neg hsize, if_pos havailable]
    have hcopy : copy ≤ size := Nat.min_le_left _ _
    have hstep := Nat.add_le_add_left ih copy
    rw [Nat.add_sub_cancel' hcopy] at hstep
    exact hstep
  | case3 f size call hsize hempty hread =>
    rw [bufferedRead, if_neg hsize, if_neg hempty, if_pos hread]
    exact Nat.zero_le size
  | case4 f size call hsize hempty hread ih =>
    rw [bufferedRead, if_neg hsize, if_neg hempty, if_neg hread]
    exact ih

theorem NativeFile.read_count_le {file file' : NativeFile} {size : Int} {answers : Nat → Nat}
    {r : Nat} {data : List Byte} (h : file.read content size answers = (.read r data, file')) :
    r ≤ size.toNat := by
  rw [NativeFile.read] at h
  split_ifs at h
  · cases h
  · cases h
    exact file.bufferedRead_count_le answers size.toNat 0
  · cases h
    rw [ioRead_length]
    exact (readCount_le _ _ _).1

end Unbuffered

namespace StripSuffixIo

section Calls

-- the files that can be opened, by their names
variable (disk : String → Option FileContent)

def create (filename : String) : StripSuffixIo where
  filename := filename
  file := (disk filename).map fun content => (content, .opened)

/-- `staticDuplicate`: the copy constructor, which opens the file again. -/
def duplicate (io : StripSuffixIo) : StripSuffixIo := create disk io.filename

/-- `read`: what it returns, the bytes, and the error code. An exception of the file's is
not caught, and there is no result then. -/
def read (io : StripSuffixIo) (len : BitVec 64) :
    Option (Int × List Byte × ErrorCode × StripSuffixIo) :=
  match io.file with
  | none => some (-1, [], .osError, io)
  | some (content, file) =>
    match file.read content len.toInt fun _ => len.toNat with
    | (.read r data, file) =>
      let io := { io with file := some (content, file) }
      if r = 0 then
        if file.isEOF content then some (0, data, .ok, io) else some (-1, data, .osError, io)
      else some (r, data, .ok, io)
    | _ => none

def write (io : StripSuffixIo) : Int × ErrorCode × StripSuffixIo := (-1, .readOnly, io)

def seek (io : StripSuffixIo) (offset : BitVec 64) : Option (Int × ErrorCode × StripSuffixIo) :=
  match io.file with
  | none => some (0, .osError, io)
  | some (content, file) =>
    (file.seek content offset.toInt .start).map fun (success, file) =>
      (if success then 1 else 0, if success then .ok else .osError,
        { io with file := some (content, file) })

def tell (io : StripSuffixIo) : Int :=
  match io.file with
  | none => -1
  | some (_, file) => file.tell

def length (io : StripSuffixIo) : Int := io.strippedLength

def flush (io : StripSuffixIo) : Int × StripSuffixIo :=
  match io.file with
  | none => (0, io)
  | some (content, file) =>
    let (flushed, file) := file.flush content
    (if flushed then 1 else 0, { io with file := some (content, file) })

theorem read_le {io io' : StripSuffixIo} {len : BitVec 64} {n : Int} {data : List Byte}
    {code : ErrorCode} (h : io.read len = some (n, data, code, io')) : n ≤ len.toNat := by
  rw [read] at h
  split at h
  · cases h
    omega
  · next content file _ =>
    split at h
    · next r data file' hread =>
      have hr := read_count_le hread
      have hlen : len.toInt.toNat ≤ len.toNat := by
        rw [BitVec.toInt]
        split_ifs <;> omega
      dsimp only at h
      split_ifs at h
      all_goals
        cases h
        omega
    · cases h

end Calls

/-! ## The search -/

/-- The magic bytes of an end of central directory record. -/
def signature : List Byte := [0x50, 0x4B, 0x05, 0x06]

/-- The loop of `determineStrippedLength`, from the chunk at `i` on. Without a place the
function returns `false`; zero is also where nothing was found. -/
def search (chunkSize : Nat) (io : StripSuffixIo) (i : Nat) :
    Option (Option Nat × StripSuffixIo) :=
  match io.seek (.ofNat 64 i) with
  | none => none
  | some (sought, _, io) =>
    if sought = 0 then some (none, io)
    else
      match _hread : io.read (.ofNat 64 chunkSize) with
      | none => none
      | some (n, data, _, io) =>
        if n ≤ 0 then some (none, io)
        else
          match rfind signature data with
          | some place => some (some (i + place), io)
          | none => if i = 0 then some (some 0, io) else search chunkSize io (i - chunkSize)
termination_by i
decreasing_by
  have hle := read_le _hread
  rw [BitVec.toNat_ofNat] at hle
  exact Nat.sub_lt (by omega) (by have := Nat.mod_le chunkSize (2 ^ 64); omega)

/-- The end of `determineStrippedLength`. -/
def rewind (io : StripSuffixIo) : Option (Bool × StripSuffixIo) :=
  (io.seek 0).map fun (sought, _, io) => (decide (sought ≠ 0), io)

def determineStrippedLength (io : StripSuffixIo) : Option (Bool × StripSuffixIo) :=
  match io.file with
  | none => some (false, io)
  | some (content, _) =>
    let fullSize := content.bytes.length
    let chunkSize := min fullSize 8192
    match search chunkSize io (fullSize - chunkSize) with
    | none => none
    | some (none, io) => some (false, io)
    | some (some i, io) =>
      if 0 < i then
        if fullSize < i + 22 then some (false, io)
        else
          match io.seek (.ofNat 64 (i + 20)) with
          | none => none
          | some (sought, _, io) =>
            if sought = 0 then some (false, io)
            else
              match io.read 2 with
              | none => none
              | some (n, buffer, _, io) =>
                if n ≤ 0 then some (false, io)
                else
                  -- both bytes are there, as the record has 22
                  let commentSize := (buffer.getD 1 0).toNat <<< 8 ||| (buffer.getD 0 0).toNat
                  if fullSize < i + 22 + commentSize then some (false, io)
                  else rewind { io with strippedLength := (i + 22 + commentSize : Nat) }
      else rewind { io with strippedLength := fullSize }

end StripSuffixIo

end Lhatove.Filesystem
