import Lhatove.Lib.Bits

/-!
# Native files

`love::filesystem::NativeFile`, opened for reading.

- The stream below is SDL's: its position is exact, and a read gives as many bytes as it
  likes, but at least one where there are any.
- Numbers are those of `int64`; a sum that overflows has no result. `size_t` has 64 bits.
-/

namespace Lhatove.Filesystem

/-- The bytes of a file. Its size is an `int64`. -/
structure FileContent where
  bytes : List Byte
  size_lt : bytes.length < 2 ^ 63

/-- `File::BufferMode` -/
inductive BufferMode
  | none
  | line
  | full
  deriving DecidableEq

/-- `Stream::SeekOrigin` -/
inductive SeekOrigin
  | start
  | current
  | finish
  deriving DecidableEq

/-- A number of type `int64`. -/
def IsInt64 (x : Int) : Prop := -2 ^ 63 ≤ x ∧ x < 2 ^ 63

instance (x : Int) : Decidable (IsInt64 x) := inferInstanceAs (Decidable (_ ∧ _))

/-- `NativeFile`; `position` is that of its stream. -/
structure NativeFile where
  position : Nat
  buffer : Option (List Byte)
  bufferMode : BufferMode
  bufferSize : Int
  bufferUsed : Int

/-- `NativeFile::NativeFile` -/
def NativeFile.opened : NativeFile := ⟨0, none, .none, 0, 0⟩

section Stream

variable (content : FileContent)

/-- How many bytes `SDL_ReadIO` reads, if `answer` is what it would like to. -/
def readCount (position size answer : Nat) : Nat :=
  let most := min size (content.bytes.length - position)
  if most = 0 then 0 else max 1 (min answer most)

/-- `SDL_ReadIO` -/
def ioRead (position size answer : Nat) : List Byte :=
  (content.bytes.drop position).take (readCount content position size answer)

variable {content}

theorem readCount_le (position size answer : Nat) :
    readCount content position size answer ≤ size ∧
      readCount content position size answer ≤ content.bytes.length - position := by
  rw [readCount]
  split_ifs <;> omega

theorem ioRead_length (position size answer : Nat) :
    (ioRead content position size answer).length = readCount content position size answer := by
  have hle := (@readCount_le content position size answer).2
  rw [ioRead, List.length_take, List.length_drop]
  omega

theorem ioRead_eq_nil {position size answer : Nat} (hsize : 0 < size)
    (h : ioRead content position size answer = []) : content.bytes.drop position = [] := by
  have hcount := congrArg List.length h
  rw [ioRead_length, List.length_nil, readCount] at hcount
  rw [List.drop_eq_nil_iff]
  split_ifs at hcount <;> omega

theorem ioRead_append (position size answer : Nat) :
    ioRead content position size answer ++
      content.bytes.drop (position + (ioRead content position size answer).length) =
      content.bytes.drop position := by
  rw [← List.drop_drop, ioRead_length, ioRead, List.take_append_drop]

variable (content)

/-- `SDL_SeekIO` -/
def ioSeek (position : Nat) (pos : Int) (origin : SeekOrigin) : Option Nat :=
  let from' : Int :=
    match origin with
    | .start => 0
    | .current => position
    | .finish => content.bytes.length
  if 0 ≤ from' + pos ∧ from' + pos < 2 ^ 63 then some (from' + pos).toNat else none

end Stream

namespace NativeFile

/-- `tell`: the bytes in the buffer are still to come. -/
def tell (f : NativeFile) : Int :=
  f.position + if f.buffer.isSome then f.bufferUsed - f.bufferSize else 0

section Calls

variable (content : FileContent)

def isEOF (f : NativeFile) : Bool := (content.bytes.length : Int) ≤ f.tell

/-- `flush`: back to what was consumed of the buffer. -/
def flush (f : NativeFile) : Bool × NativeFile :=
  if f.buffer.isSome then
    match ioSeek content f.position (f.bufferUsed - f.bufferSize) .current with
    | none => (false, f)
    | some position => (true, { f with position, bufferUsed := f.bufferSize })
  else (true, f)

def seek (f : NativeFile) (pos : Int) (origin : SeekOrigin) : Option (Bool × NativeFile) :=
  let offset := pos - f.tell
  let within := f.buffer.isSome ∧ origin = .start
  if within ∧ ¬ IsInt64 offset then none
  else if within ∧ 0 ≤ offset ∧ ¬ IsInt64 (offset + f.bufferUsed) then none
  else if within ∧ 0 ≤ offset ∧ offset + f.bufferUsed < f.bufferSize then
    some (true, { f with bufferUsed := f.bufferUsed + offset })
  else
    let (flushed, f) := f.flush content
    if flushed then
      match ioSeek content f.position pos origin with
      | none => some (false, f)
      | some position => some (true, { f with position })
    else some (false, f)

/-- `setupBuffering`; `room` is whether the memory can be allocated. What is in it is
not read before it is written. -/
def setupBuffering (f : NativeFile) (mode : BufferMode) (size : Int) (room : Bool) :
    Bool × NativeFile :=
  if mode = .none then (true, { f with buffer := none, bufferUsed := size })
  else if room then
    (true, { f with buffer := some (List.replicate size.toNat 0), bufferUsed := size })
  else (false, f)

/-- `DEFAULT_BUFFER_SIZE`, with a `BUFSIZ` of 8192. -/
def defaultBufferSize : Int := max 8192 4096

def setBuffer (f : NativeFile) (mode : BufferMode) (size : Int) (room : Bool) :
    Bool × NativeFile :=
  if size < 0 then (false, f)
  else
    let size := if mode = .none then 0 else if size = 0 then defaultBufferSize else size
    let (flushed, f) := f.flush content
    if flushed then
      let (ready, f) := f.setupBuffering mode size room
      if ready then (true, { f with bufferMode := mode, bufferSize := size }) else (false, f)
    else (false, f)

/-- The stream's next bytes at the end of the buffer. -/
def fill (f : NativeFile) (answer : Nat) : NativeFile :=
  let buffer := f.buffer.getD []
  let data := ioRead content f.position f.bufferSize.toNat answer
  let used := f.bufferSize - data.length
  let filled := overwrite buffer 0 data
  { f with
    position := f.position + data.length
    bufferUsed := used
    buffer := some (if data ≠ [] ∧ 0 < used then overwrite filled used.toNat data else filled) }

theorem fill_available (f : NativeFile) (answer : Nat) :
    (f.fill content answer).bufferSize - (f.fill content answer).bufferUsed =
      (ioRead content f.position f.bufferSize.toNat answer).length := by
  show f.bufferSize - (f.bufferSize - _) = _
  omega

/-- The loop of `bufferedRead`: the count, the bytes, and the file behind them.
`answers` are those of `SDL_ReadIO`, one call after the other. -/
def bufferedRead (answers : Nat → Nat) (f : NativeFile) (size call : Nat) :
    Nat × List Byte × NativeFile :=
  if size = 0 then (0, [], f)
  else if 0 < f.bufferSize - f.bufferUsed then
    let copy := min size (f.bufferSize - f.bufferUsed).toNat
    let data := ((f.buffer.getD []).drop f.bufferUsed.toNat).take copy
    let (readed, rest, f) :=
      bufferedRead answers { f with bufferUsed := f.bufferUsed + copy } (size - copy) call
    (copy + readed, data ++ rest, f)
  else if ioRead content f.position f.bufferSize.toNat (answers call) = [] then
    (0, [], f.fill content (answers call))
  else bufferedRead answers (f.fill content (answers call)) size (call + 1)
termination_by (size, if 0 < f.bufferSize - f.bufferUsed then 0 else 1)
decreasing_by
  · refine Prod.Lex.left _ _ ?_
    omega
  · next hsize hempty hread =>
    refine Prod.Lex.right _ ?_
    rw [if_neg hempty, fill_available, if_pos (by
      have := List.length_pos_iff.mpr hread
      omega)]
    exact Nat.zero_lt_one

end Calls

end NativeFile

/-! ## Calls -/

/-- A call, of a file that is open for reading. -/
inductive Call
  | read (size : Int)
  | seek (pos : Int) (origin : SeekOrigin)
  | tell
  | isEOF
  | setBuffer (mode : BufferMode) (size : Int) (room : Bool)

/-- What a call answers. -/
inductive Reply
  | read (count : Nat) (data : List Byte)
  | exception (message : String)
  | seek (ok : Bool)
  | tell (position : Int)
  | isEOF (eof : Bool)
  deriving DecidableEq

/-- A call, with the answers of `SDL_ReadIO` in it, and those without a buffer. -/
structure FileOp where
  call : Call
  answers : Nat → Nat
  plainAnswers : Nat → Nat

section Runs

variable (content : FileContent)

def NativeFile.read (f : NativeFile) (size : Int) (answers : Nat → Nat) : Reply × NativeFile :=
  if size < 0 then (.exception "Invalid read size.", f)
  else if f.buffer.isSome then
    let (readed, data, f) := f.bufferedRead content answers size.toNat 0
    (.read readed data, f)
  else
    let data := ioRead content f.position size.toNat (answers 0)
    (.read data.length data, { f with position := f.position + data.length })

/-- A call. It has no result if its behaviour is undefined; of `setBuffer` no answer is
kept. -/
def NativeFile.call (f : NativeFile) (answers : Nat → Nat) :
    Call → Option (Option Reply × NativeFile)
  | .read size =>
    let (reply, f) := f.read content size answers
    some (some reply, f)
  | .seek pos origin =>
    (f.seek content pos origin).map fun (ok, f) => (some (.seek ok), f)
  | .tell => some (some (.tell f.tell), f)
  | .isEOF => some (some (.isEOF (f.isEOF content)), f)
  | .setBuffer mode size room => some (none, (f.setBuffer content mode size room).2)

/-- The same call without any buffer. -/
def NativeFile.plainCall (f : NativeFile) (answers : Nat → Nat) (c : Call) :
    Option (Option Reply × NativeFile) :=
  match c with
  | .setBuffer .. => some (none, f)
  | c => f.call content answers c

/-- The answers of a sequence of calls. -/
def replies (f : NativeFile) : List FileOp → Option (List Reply)
  | [] => some []
  | op :: ops => do
    let (reply, f) ← f.call content op.answers op.call
    let rest ← replies f ops
    return reply.toList ++ rest

/-- The answers of the same calls without any buffer. -/
def plainReplies (f : NativeFile) : List FileOp → Option (List Reply)
  | [] => some []
  | op :: ops => do
    let (reply, f) ← f.plainCall content op.plainAnswers op.call
    let rest ← plainReplies f ops
    return reply.toList ++ rest

end Runs

end Lhatove.Filesystem
