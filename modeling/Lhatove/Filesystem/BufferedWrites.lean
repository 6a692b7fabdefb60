import Lhatove.Filesystem.NativeFile

/-!
# Writing with a buffer

`love::filesystem::NativeFile`, opened for writing or for appending, without seeks: all that
is written goes to the end of the file.

- `SDL_WriteIO` writes as many bytes as it likes, and `SDL_FlushIO` and `SDL_CloseIO` succeed
  as they like; what they answer is an argument.
- `denoted`: the bytes in the file, and those in the buffer behind them;
- `Drains`: no call throws away what is in the buffer;
- `run_content_iff`: when the file has all that was written.
-/

namespace Lhatove.Filesystem

open List

/-- `NativeFile`. Where there is a buffer, `bufferSize` is that of its memory. -/
structure WriteFile where
  content : List Byte
  isOpen : Bool
  buffer : Option (List Byte)
  bufferMode : BufferMode
  bufferSize : Nat
  bufferUsed : Nat

/-- What the system answers in a call: how many bytes are written by one `SDL_WriteIO` after
the other, if there are as many, and whether calls of `SDL_FlushIO`, `SDL_CloseIO` and of the
allocator succeed. -/
structure Answers where
  writes : Nat → Nat
  flushes : Nat → Bool
  close : Bool
  room : Bool

/-- What a call does: it returns, or throws. -/
inductive Outcome
  | returned (ok : Bool)
  | exception (message : String)
  deriving DecidableEq

namespace WriteFile

/-- `SDL_WriteIO`, of the bytes that the system takes. -/
def ioWrite (f : WriteFile) (data : List Byte) (answer : Nat) : WriteFile :=
  { f with content := f.content ++ data.take answer }

/-- `memmove(buffer, buffer + count, bufferSize - count)` -/
def shift (buffer : List Byte) (count : Nat) : List Byte :=
  overwrite buffer 0 (buffer.drop count)

/-- `flush`, of a file that is open -/
def flush (f : WriteFile) (answer : Nat) (flushed : Bool) : Bool × WriteFile :=
  match f.buffer with
  | none => (flushed, f)
  | some buffer =>
    if 0 < f.bufferUsed then
      let written := min answer f.bufferUsed
      (flushed, { f.ioWrite (buffer.take f.bufferUsed) written with
        buffer := some (shift buffer written)
        bufferUsed := f.bufferUsed - written })
    else (flushed, f)

/-- `bufferedWrite`, from where the buffer is empty: whole buffers go past it, and the rest
into it. -/
def writeRest (f : WriteFile) (buffer rest : List Byte) (answers : Answers) : Bool × WriteFile :=
  let targetDirectBuffer := rest.length / f.bufferSize * f.bufferSize
  let direct := 0 < rest.length / f.bufferSize
  let directWritten := min (answers.writes 1) targetDirectBuffer
  let f := if direct then f.ioWrite (rest.take targetDirectBuffer) directWritten else f
  if direct ∧ directWritten < targetDirectBuffer then (false, f)
  else
    let rest := rest.drop targetDirectBuffer
    let f := if 0 < rest.length then
      { f with buffer := some (overwrite buffer 0 rest), bufferUsed := rest.length } else f
    (answers.flushes 0, f)

/-- `bufferedWrite`, with the memory of the buffer -/
def bufferedWrite (f : WriteFile) (buffer data : List Byte) (answers : Answers) :
    Bool × WriteFile :=
  let size := f.bufferSize
  let inBuffer := min data.length (size - f.bufferUsed)
  let buffer := overwrite buffer f.bufferUsed (data.take inBuffer)
  let f := { f with buffer := some buffer, bufferUsed := f.bufferUsed + inBuffer }
  let rest := data.drop inBuffer
  if 0 < rest.length then
    -- the buffer is full
    let bufferWritten := min (answers.writes 0) size
    let f := { f.ioWrite (buffer.take size) bufferWritten with
      bufferUsed := f.bufferUsed - bufferWritten }
    if bufferWritten < size then
      (false, { f with buffer := some (shift buffer bufferWritten) })
    else f.writeRest buffer rest answers
  else (true, f)

/-- `write`; the size is that of the data. -/
def write (f : WriteFile) (data : List Byte) (answers : Answers) : Outcome × WriteFile :=
  if f.isOpen = false then (.exception "File is not opened for writing.", f)
  else
    match f.buffer with
    | some buffer =>
      let (buffered, f) := f.bufferedWrite buffer data answers
      if buffered = false then (.returned false, f)
      else if f.bufferMode = .line ∧ (10 : Byte) ∈ data then
        let (flushed, f) := f.flush (answers.writes 2) (answers.flushes 1)
        (.returned flushed, f)
      else (.returned true, f)
    | none =>
      let f := f.ioWrite data (answers.writes 0)
      (.returned (data.length ≤ answers.writes 0), f)

/-- `setupBuffering`, not for reading -/
def setupBuffering (f : WriteFile) (mode : BufferMode) (size : Nat) (room : Bool) :
    Bool × WriteFile :=
  if mode = .none then (true, { f with buffer := none, bufferUsed := 0 })
  else if room then (true, { f with buffer := some (List.replicate size 0), bufferUsed := 0 })
  else (false, f)

/-- The size that `setBuffer` makes of the one it is given. -/
def normalSize (mode : BufferMode) (size : Int) : Nat :=
  if mode = .none then 0 else if size = 0 then NativeFile.defaultBufferSize.toNat else size.toNat

def setBuffer (f : WriteFile) (mode : BufferMode) (size : Int) (answers : Answers) :
    Bool × WriteFile :=
  if size < 0 then (false, f)
  else
    let size := normalSize mode size
    if f.isOpen then
      let (flushed, f) := f.flush (answers.writes 0) (answers.flushes 0)
      if flushed = false then (false, f)
      else
        let (ready, f) := f.setupBuffering mode size answers.room
        if ready = false then (false, f)
        else (true, { f with bufferMode := mode, bufferSize := size })
    else (true, { f with bufferMode := mode, bufferSize := size })

def close (f : WriteFile) (answers : Answers) : Bool × WriteFile :=
  if f.isOpen = false then (false, f)
  else
    let (flushed, f) := f.flush (answers.writes 0) (answers.flushes 0)
    let (_, f) := { f with isOpen := false }.setupBuffering .none 0 answers.room
    (answers.close && flushed, f)

/-- `open`, for writing: the file's contents are those that it is opened with. -/
def openFile (content : List Byte) (mode : BufferMode) (size : Nat) : WriteFile where
  content := content
  isOpen := true
  buffer := if mode = .none then none else some (List.replicate size 0)
  bufferMode := mode
  bufferSize := size
  bufferUsed := 0

end WriteFile

/-! ## Runs -/

inductive WriteCall
  | write (data : List Byte)
  | flush
  | setBuffer (mode : BufferMode) (size : Int)
  | close

/-- A call, with what the system answers in it. -/
structure WriteOp where
  call : WriteCall
  answers : Answers

def WriteFile.call (f : WriteFile) (answers : Answers) : WriteCall → Outcome × WriteFile
  | .write data => f.write data answers
  | .flush =>
    if f.isOpen then
      let (ok, f) := f.flush (answers.writes 0) (answers.flushes 0)
      (.returned ok, f)
    else (.exception "Invalid file mode.", f)
  | .setBuffer mode size =>
    let (ok, f) := f.setBuffer mode size answers
    (.returned ok, f)
  | .close =>
    let (ok, f) := f.close answers
    (.returned ok, f)

/-- A call of a run. -/
def WriteFile.step (f : WriteFile) (op : WriteOp) : WriteFile := (f.call op.answers op.call).2

def WriteFile.run (f : WriteFile) (ops : List WriteOp) : WriteFile := ops.foldl WriteFile.step f

/-- What the calls of a run return, one after the other. -/
def WriteFile.outcomes (f : WriteFile) : List WriteOp → List Outcome
  | [] => []
  | op :: ops => (f.call op.answers op.call).1 :: (f.step op).outcomes ops

/-- The data that a call is to write. -/
def WriteCall.data : WriteCall → List Byte
  | .write data => data
  | _ => []

/-- All data, in order. -/
def written (ops : List WriteOp) : List Byte := ops.flatMap fun op => op.call.data

/-- Every write returned true. -/
def WritesReturned : WriteFile → List WriteOp → Prop
  | _, [] => True
  | f, op :: ops =>
    (∀ data, op.call = .write data → (f.call op.answers op.call).1 = .returned true) ∧
      WritesReturned (f.step op) ops

/-- There is a last call of `close`, and it returned true. -/
def CloseReturned (f : WriteFile) (ops : List WriteOp) : Prop :=
  ∃ before op behind, ops = before ++ op :: behind ∧ op.call = .close ∧
    (∀ op' ∈ behind, op'.call ≠ .close) ∧
    ((f.run before).call op.answers op.call).1 = .returned true

/-! ## What is in the buffer -/

/-- The bytes in the buffer that are not in the file yet. -/
def WriteFile.pending (f : WriteFile) : List Byte := (f.buffer.getD []).take f.bufferUsed

/-- **What a file stands for**: its contents, and then what is in the buffer. -/
def WriteFile.denoted (f : WriteFile) : List Byte := f.content ++ f.pending

/-- The buffer is as large as it should be. A file that is not open has none. -/
structure WriteFile.Good (f : WriteFile) : Prop where
  memory : ∀ buffer, f.buffer = some buffer →
    buffer.length = f.bufferSize ∧ 0 < f.bufferSize ∧ f.bufferUsed ≤ f.bufferSize
  unopened : f.isOpen = false → f.buffer = none

/-- A call does not throw away what is in the buffer: the flush of `close`, and that of a
`setBuffer` that goes on to a new buffer, write all of it. -/
def WriteFile.Drained (f : WriteFile) (op : WriteOp) : Prop :=
  match op.call with
  | .write _ | .flush => True
  | .setBuffer mode size => 0 ≤ size → op.answers.flushes 0 = true →
    (mode = .none ∨ op.answers.room = true) → f.pending.length ≤ op.answers.writes 0
  | .close => f.pending.length ≤ op.answers.writes 0

def Drains : WriteFile → List WriteOp → Prop
  | _, [] => True
  | f, op :: ops => f.Drained op ∧ Drains (f.step op) ops

namespace WriteFile

variable {f : WriteFile}

theorem pending_eq_nil (h : f.buffer = none) : f.pending = [] := by
  rw [pending, h, Option.getD_none, take_nil]

/-! ## Flushes -/

theorem shift_length {buffer : List Byte} {count : Nat} :
    (shift buffer count).length = buffer.length :=
  overwrite_length (by rw [length_drop]; omega)

theorem take_shift {buffer : List Byte} {count used : Nat} (hused : used ≤ buffer.length) :
    (shift buffer count).take (used - count) = (buffer.take used).drop count := by
  rw [shift, overwrite, take_zero, nil_append, drop_take]
  exact take_append_of_le_length (by rw [length_drop]; omega)

/-- **A flush** writes what the system takes, and keeps the rest. -/
theorem flush_spec (h : f.Good) (answer : Nat) (flushed : Bool) :
    ∃ f', f.flush answer flushed = (flushed, f') ∧ f'.Good ∧
      f'.content = f.content ++ f.pending.take answer ∧ f'.pending = f.pending.drop answer ∧
      f'.isOpen = f.isOpen ∧ f'.bufferMode = f.bufferMode := by
  rw [flush]
  cases hbuffer : f.buffer with
  | none =>
    refine ⟨f, rfl, h, ?_, ?_, rfl, rfl⟩
    · rw [pending_eq_nil hbuffer, take_nil, append_nil]
    · rw [pending_eq_nil hbuffer, drop_nil]
  | some buffer =>
    obtain ⟨hlength, hpos, hused⟩ := h.memory buffer hbuffer
    have hpending : f.pending = buffer.take f.bufferUsed := by
      rw [pending, hbuffer, Option.getD_some]
    have htaken : (buffer.take f.bufferUsed).length = f.bufferUsed :=
      length_take_of_le (by omega)
    dsimp only
    split_ifs with hsome
    · refine ⟨_, rfl, ⟨?_, ?_⟩, ?_, ?_, rfl, rfl⟩
      · intro buffer' hbuffer'
        cases hbuffer'
        refine ⟨shift_length.trans hlength, hpos, ?_⟩
        change f.bufferUsed - min answer f.bufferUsed ≤ f.bufferSize
        omega
      · intro hclosed
        have := h.unopened hclosed
        rw [hbuffer] at this
        cases this
      · rw [hpending]
        change f.content ++ (buffer.take f.bufferUsed).take (min answer f.bufferUsed) = _
        rw [@take_eq_take_min _ (buffer.take f.bufferUsed) answer, htaken]
      · rw [hpending]
        change (shift buffer (min answer f.bufferUsed)).take
          (f.bufferUsed - min answer f.bufferUsed) = _
        rw [take_shift (by omega), @drop_eq_drop_min _ (buffer.take f.bufferUsed) answer,
          htaken]
    · have hzero : f.pending = [] := by
        rw [hpending, Nat.eq_zero_of_not_pos hsome, take_zero]
      refine ⟨f, rfl, h, ?_, ?_, rfl, rfl⟩
      · rw [hzero, take_nil, append_nil]
      · rw [hzero, drop_nil]

/-! ## Writes -/

theorem take_put {buffer data : List Byte} {used : Nat} (h : used + data.length ≤ buffer.length) :
    (overwrite buffer used data).take (used + data.length) = buffer.take used ++ data :=
  overwrite_take h

/-- Whole buffers and the rest, where the buffer is empty. -/
theorem writeRest_spec {buffer rest : List Byte} (hopen : f.isOpen ≠ false)
    (hbuffer : f.buffer = some buffer) (hlength : buffer.length = f.bufferSize)
    (hpos : 0 < f.bufferSize) (hempty : f.bufferUsed = 0) {answers : Answers} {f' : WriteFile}
    (hok : f.writeRest buffer rest answers = (true, f')) :
    f'.Good ∧ f'.denoted = f.content ++ rest ∧ f'.isOpen = f.isOpen ∧
      f'.bufferMode = f.bufferMode := by
  rw [writeRest] at hok
  dsimp only at hok
  have hmod := Nat.mod_lt rest.length hpos
  have hdiv := Nat.div_add_mod' rest.length f.bufferSize
  generalize htarget : rest.length / f.bufferSize * f.bufferSize = target at hok hdiv
  have hdropped : (rest.drop target).length = rest.length % f.bufferSize := by
    rw [length_drop]
    omega
  by_cases hshort : 0 < rest.length / f.bufferSize ∧ min (answers.writes 1) target < target
  · rw [if_pos hshort] at hok
    cases hok
  · rw [if_neg hshort] at hok
    -- what goes past the buffer is written whole, also where it is nothing
    generalize hg : (if 0 < rest.length / f.bufferSize then
      f.ioWrite (rest.take target) (min (answers.writes 1) target) else f) = g at hok
    have hdirect : g = { f with content := f.content ++ rest.take target } := by
      rw [← hg]
      split_ifs with hsome
      · have hwhole : min (answers.writes 1) target = target :=
          Nat.min_eq_right (not_lt.mp fun hlt => hshort ⟨hsome, by omega⟩)
        rw [ioWrite, hwhole, take_take, Nat.min_self]
      · have hzero : target = 0 := by
          rw [← htarget, Nat.eq_zero_of_not_pos hsome, Nat.zero_mul]
        rw [hzero, take_zero, append_nil]
    subst hdirect
    by_cases hleft : 0 < (rest.drop target).length
    · rw [if_pos hleft] at hok
      have hmemory : (overwrite buffer 0 (rest.drop target)).length = f.bufferSize :=
        (overwrite_length (by omega)).trans hlength
      obtain ⟨-, rfl⟩ := Prod.mk.inj hok
      refine ⟨⟨?_, fun hclosed => absurd hclosed hopen⟩, ?_, rfl, rfl⟩
      · intro buffer' hbuffer'
        cases hbuffer'
        refine ⟨hmemory, hpos, ?_⟩
        change (rest.drop target).length ≤ f.bufferSize
        omega
      · have hput := @take_put buffer (rest.drop target) 0 (by omega)
        rw [Nat.zero_add, take_zero, nil_append] at hput
        rw [denoted, pending, Option.getD_some, hput, append_assoc, take_append_drop]
    · rw [if_neg hleft] at hok
      obtain ⟨-, rfl⟩ := Prod.mk.inj hok
      refine ⟨⟨?_, fun hclosed => absurd hclosed hopen⟩, ?_, rfl, rfl⟩
      · intro buffer' hbuffer'
        rw [hbuffer] at hbuffer'
        cases hbuffer'
        exact ⟨hlength, hpos, by rw [hempty]; exact Nat.zero_le _⟩
      · have hall : rest.take target = rest := take_of_length_le (by
          omega)
        rw [denoted, pending, hempty, take_zero, append_nil, hall]

/-- **A buffered write** that returns true adds the data to what the file stands for. -/
theorem bufferedWrite_spec (h : f.Good) {buffer data : List Byte} (hbuffer : f.buffer = some buffer)
    {answers : Answers} {f' : WriteFile} (hok : f.bufferedWrite buffer data answers = (true, f')) :
    f'.Good ∧ f'.denoted = f.denoted ++ data ∧ f'.isOpen = f.isOpen ∧
      f'.bufferMode = f.bufferMode := by
  obtain ⟨hlength, hpos, hused⟩ := h.memory buffer hbuffer
  have hopen : f.isOpen ≠ false := by
    intro hclosed
    rw [h.unopened hclosed] at hbuffer
    cases hbuffer
  have hpending : f.pending = buffer.take f.bufferUsed := by
    rw [pending, hbuffer, Option.getD_some]
  rw [bufferedWrite] at hok
  generalize hn : min data.length (f.bufferSize - f.bufferUsed) = n at hok
  have htaken : (data.take n).length = n := length_take_of_le (by omega)
  have hput : (overwrite buffer f.bufferUsed (data.take n)).take (f.bufferUsed + n) =
      f.pending ++ data.take n := by
    have hput := @take_put buffer (data.take n) f.bufferUsed (by omega)
    rw [htaken] at hput
    rw [hput, hpending]
  have hmemory : (overwrite buffer f.bufferUsed (data.take n)).length = f.bufferSize :=
    (overwrite_length (by omega)).trans hlength
  generalize overwrite buffer f.bufferUsed (data.take n) = buffer₁ at hok hput hmemory
  by_cases hrest : 0 < (data.drop n).length
  · rw [if_pos hrest] at hok
    -- the buffer is full, and is written
    have hfull : f.bufferUsed + n = f.bufferSize := by
      rw [length_drop] at hrest
      omega
    by_cases hshort : min (answers.writes 0) f.bufferSize < f.bufferSize
    · rw [if_pos hshort] at hok
      cases hok
    · have hwhole : min (answers.writes 0) f.bufferSize = f.bufferSize := by omega
      have hkept : buffer₁.take f.bufferSize = f.pending ++ data.take n := by rw [← hfull, hput]
      rw [if_neg hshort] at hok
      simp only [ioWrite, hwhole, hfull, take_take, Nat.min_self, Nat.sub_self] at hok
      have hspec := fun hopen hbuffer hlength hpos hempty =>
        @writeRest_spec _ buffer₁ _ hopen hbuffer hlength hpos hempty _ _ hok
      obtain ⟨hgood, hdenoted, hsame, hmode⟩ := hspec hopen rfl hmemory hpos rfl
      refine ⟨hgood, ?_, hsame, hmode⟩
      rw [hdenoted, denoted]
      simp only [hkept, append_assoc, take_append_drop]
  · rw [if_neg hrest] at hok
    cases hok
    have hall : data.take n = data := take_of_length_le (by
      rw [length_drop] at hrest
      omega)
    refine ⟨⟨?_, fun hclosed => absurd hclosed hopen⟩, ?_, rfl, rfl⟩
    · intro buffer' hbuffer'
      cases hbuffer'
      refine ⟨hmemory, hpos, ?_⟩
      change f.bufferUsed + n ≤ f.bufferSize
      omega
    · rw [denoted, denoted, append_assoc]
      change f.content ++ buffer₁.take (f.bufferUsed + n) = _
      rw [hput, hall]

/-- **A write** that returns true adds the data to what the file stands for. -/
theorem write_spec (h : f.Good) {data : List Byte} {answers : Answers} {f' : WriteFile}
    (hok : f.write data answers = (.returned true, f')) :
    f'.Good ∧ f'.denoted = f.denoted ++ data := by
  rw [write] at hok
  by_cases hclosed : f.isOpen = false
  · rw [if_pos hclosed] at hok
    cases hok
  · rw [if_neg hclosed] at hok
    cases hbuffer : f.buffer with
    | none =>
      rw [hbuffer] at hok
      obtain ⟨hall, rfl⟩ := Prod.mk.inj hok
      have hle : data.length ≤ answers.writes 0 := by simpa using hall
      refine ⟨⟨?_, h.unopened⟩, ?_⟩
      · intro buffer hbuffer'
        rw [ioWrite, hbuffer] at hbuffer'
        cases hbuffer'
      · rw [denoted, denoted, ioWrite, pending, pending, hbuffer, take_of_length_le hle]
        simp
    | some buffer =>
      rw [hbuffer] at hok
      dsimp only at hok
      cases hbuffered : f.bufferedWrite buffer data answers with
      | mk buffered next =>
        rw [hbuffered] at hok
        dsimp only at hok
        cases buffered with
        | false => cases hok
        | true =>
          obtain ⟨hgood, hdenoted, -, -⟩ := bufferedWrite_spec h hbuffer hbuffered
          rw [if_neg (by decide)] at hok
          split at hok
          · obtain ⟨last, hflush, hgood', hcontent, hpending, -, -⟩ :=
              flush_spec hgood (answers.writes 2) (answers.flushes 1)
            rw [hflush] at hok
            obtain ⟨-, rfl⟩ := Prod.mk.inj hok
            refine ⟨hgood', ?_⟩
            rw [denoted, hcontent, hpending, append_assoc, take_append_drop]
            exact hdenoted
          · obtain ⟨-, rfl⟩ := Prod.mk.inj hok
            exact ⟨hgood, hdenoted⟩

/-! ## Buffers that change -/

/-- A buffer that goes away takes with it what the last flush did not write. -/
theorem setupBuffering_spec (hopen : f.isOpen = true) (mode : BufferMode) {size : Nat}
    (hsize : mode ≠ .none → 0 < size) (room : Bool) :
    (mode = .none ∨ room = true → ∃ f', f.setupBuffering mode size room = (true, f') ∧
      { f' with bufferMode := mode, bufferSize := size }.Good ∧ f'.content = f.content ∧
      f'.pending = []) ∧
    (¬ (mode = .none ∨ room = true) → f.setupBuffering mode size room = (false, f)) := by
  rw [setupBuffering]
  constructor
  · intro hready
    split_ifs with hnone hroom
    · refine ⟨_, rfl, ⟨?_, fun _ => rfl⟩, rfl, rfl⟩
      intro buffer hbuffer
      cases hbuffer
    · refine ⟨_, rfl, ⟨?_, ?_⟩, rfl, rfl⟩
      · intro buffer hbuffer
        cases hbuffer
        exact ⟨length_replicate, hsize hnone, Nat.zero_le _⟩
      · intro hclosed
        rw [show f.isOpen = false from hclosed] at hopen
        cases hopen
    · exact absurd hready (not_or.mpr ⟨hnone, hroom⟩)
  · intro hnot
    rw [if_neg fun hnone => hnot (.inl hnone), if_neg fun hroom => hnot (.inr hroom)]

theorem normalSize_pos {mode : BufferMode} {size : Int} (hmode : mode ≠ .none) (hsize : 0 ≤ size) :
    0 < normalSize mode size := by
  rw [normalSize, if_neg hmode]
  split_ifs with hzero
  · decide
  · omega

/-- Without a buffer the file stands for its contents: less than before, if the flush did not
write all that was in the buffer. -/
theorem denoted_of_dropped {f' : WriteFile} {answer : Nat}
    (hcontent : f'.content = f.content ++ f.pending.take answer) (hpending : f'.pending = []) :
    (f.pending.length ≤ answer → f'.denoted = f.denoted) ∧
      (¬ f.pending.length ≤ answer → f'.denoted.length < f.denoted.length) := by
  rw [denoted, denoted, hcontent, hpending, append_nil]
  constructor
  · intro hall
    rw [take_of_length_le hall]
  · intro hshort
    rw [length_append, length_append, length_take]
    omega

theorem flush_denoted {f' : WriteFile} {answer : Nat}
    (hcontent : f'.content = f.content ++ f.pending.take answer)
    (hpending : f'.pending = f.pending.drop answer) : f'.denoted = f.denoted := by
  rw [denoted, hcontent, hpending, append_assoc, take_append_drop]
  rfl

/-- **A change of the buffer** keeps what the file stands for exactly if it drains. -/
theorem setBuffer_spec (h : f.Good) (mode : BufferMode) (size : Int) (answers : Answers) :
    (f.setBuffer mode size answers).2.Good ∧
      (f.Drained ⟨.setBuffer mode size, answers⟩ →
        (f.setBuffer mode size answers).2.denoted = f.denoted) ∧
      (¬ f.Drained ⟨.setBuffer mode size, answers⟩ →
        (f.setBuffer mode size answers).2.denoted.length < f.denoted.length) := by
  rw [setBuffer]
  by_cases hsize : size < 0
  · rw [if_pos hsize]
    refine ⟨h, fun _ => rfl, ?_⟩
    intro hnot
    exact absurd (fun hpos => absurd hpos (not_le.mpr hsize)) hnot
  · rw [if_neg hsize]
    cases hopen : f.isOpen with
    | false =>
      have hnone := h.unopened hopen
      refine ⟨⟨?_, fun _ => hnone⟩, fun _ => rfl, ?_⟩
      · intro buffer hbuffer
        rw [show f.buffer = some buffer from hbuffer] at hnone
        cases hnone
      · intro hnot
        refine absurd ?_ hnot
        intro _ _ _
        rw [pending_eq_nil hnone]
        exact Nat.zero_le _
    | true =>
      obtain ⟨next, hflush, hgood, hcontent, hpending, hsame, -⟩ :=
        flush_spec h (answers.writes 0) (answers.flushes 0)
      have hkept := flush_denoted hcontent hpending
      rw [if_pos rfl, hflush]
      dsimp only
      cases hflushed : answers.flushes 0 with
      | false =>
        refine ⟨hgood, fun _ => hkept, ?_⟩
        intro hnot
        refine absurd ?_ hnot
        intro _ htrue
        rw [hflushed] at htrue
        cases htrue
      | true =>
        obtain ⟨hready, hfails⟩ := setupBuffering_spec (hsame.trans hopen) mode
          (fun hmode => normalSize_pos hmode (not_lt.mp hsize)) answers.room
        by_cases hroom : mode = .none ∨ answers.room = true
        · obtain ⟨last, hsetup, hgood', hcontent', hpending'⟩ := hready hroom
          obtain ⟨hall, hshort⟩ :=
            @denoted_of_dropped _ { last with
              bufferMode := mode, bufferSize := normalSize mode size } _
              (hcontent'.trans hcontent) hpending'
          rw [hsetup]
          refine ⟨hgood', ?_, ?_⟩
          · intro hdrained
            exact hall (hdrained (not_lt.mp hsize) hflushed hroom)
          · intro hnot
            refine hshort fun hle => hnot ?_
            intro _ _ _
            exact hle
        · rw [hfails hroom]
          refine ⟨hgood, fun _ => hkept, ?_⟩
          intro hnot
          refine absurd ?_ hnot
          intro _ _ htrue
          exact absurd htrue hroom

/-- **The close** of a file keeps what it stands for exactly if it drains. -/
theorem close_spec (h : f.Good) (answers : Answers) :
    (f.close answers).2.Good ∧ (f.close answers).2.isOpen = false ∧
      (f.Drained ⟨.close, answers⟩ → (f.close answers).2.denoted = f.denoted) ∧
      (¬ f.Drained ⟨.close, answers⟩ →
        (f.close answers).2.denoted.length < f.denoted.length) := by
  rw [close]
  by_cases hclosed : f.isOpen = false
  · rw [if_pos hclosed]
    refine ⟨h, hclosed, fun _ => rfl, ?_⟩
    intro hnot
    refine absurd ?_ hnot
    change f.pending.length ≤ _
    rw [pending_eq_nil (h.unopened hclosed)]
    exact Nat.zero_le _
  · rw [if_neg hclosed]
    obtain ⟨next, hflush, -, hcontent, -, -, -⟩ :=
      flush_spec h (answers.writes 0) (answers.flushes 0)
    rw [hflush]
    refine ⟨⟨?_, fun _ => rfl⟩, rfl, denoted_of_dropped hcontent rfl⟩
    intro buffer hbuffer
    cases hbuffer

/-! ## Runs -/

/-- **One call**, which returns true if it is a write: what the file stands for grows by the
data, exactly if the call drains. -/
theorem step_spec (h : f.Good) {op : WriteOp}
    (hwrite : ∀ data, op.call = .write data → (f.call op.answers op.call).1 = .returned true) :
    (f.step op).Good ∧ (f.Drained op → (f.step op).denoted = f.denoted ++ op.call.data) ∧
      (¬ f.Drained op → (f.step op).denoted.length < (f.denoted ++ op.call.data).length) := by
  obtain ⟨call, answers⟩ := op
  cases call with
  | write data =>
    have hok : f.write data answers = (.returned true, (f.write data answers).2) :=
      Prod.ext (hwrite data rfl) rfl
    obtain ⟨hgood, hdenoted⟩ := write_spec h hok
    refine ⟨hgood, fun _ => hdenoted, ?_⟩
    intro hnot
    exact absurd trivial hnot
  | flush =>
    simp only [step, WriteFile.call, WriteCall.data, append_nil]
    split_ifs with hopen
    · obtain ⟨next, hflush, hgood, hcontent, hpending, -, -⟩ :=
        flush_spec h (answers.writes 0) (answers.flushes 0)
      rw [hflush]
      refine ⟨hgood, fun _ => flush_denoted hcontent hpending, ?_⟩
      intro hnot
      exact absurd trivial hnot
    · refine ⟨h, fun _ => rfl, ?_⟩
      intro hnot
      exact absurd trivial hnot
  | setBuffer mode size =>
    simp only [WriteCall.data, append_nil]
    exact setBuffer_spec h mode size answers
  | close =>
    obtain ⟨hgood, -, hkept, hless⟩ := close_spec h answers
    simp only [WriteCall.data, append_nil]
    exact ⟨hgood, hkept, hless⟩

/-- **A run** whose writes return true: the file stands for all data, exactly if every call
drains. -/
theorem run_spec {ops : List WriteOp} (h : f.Good) (hwrites : WritesReturned f ops) :
    (f.run ops).Good ∧ (Drains f ops → (f.run ops).denoted = f.denoted ++ written ops) ∧
      (¬ Drains f ops → (f.run ops).denoted.length < (f.denoted ++ written ops).length) := by
  induction ops generalizing f with
  | nil =>
    refine ⟨h, fun _ => (append_nil _).symm, ?_⟩
    intro hnot
    exact absurd trivial hnot
  | cons op ops ih =>
    obtain ⟨hwrite, hrest⟩ := hwrites
    obtain ⟨hgood, hstep, hstep'⟩ := step_spec h hwrite
    obtain ⟨hgood', hrun, hrun'⟩ := ih hgood hrest
    have hdata : written (op :: ops) = op.call.data ++ written ops := rfl
    refine ⟨hgood', ?_, ?_⟩
    · rintro ⟨hfirst, hothers⟩
      rw [hdata, ← append_assoc, ← hstep hfirst]
      exact hrun hothers
    · intro hnot
      -- neither part grows by more than its data, and one of them by less
      have hstep_le : (f.step op).denoted.length ≤ (f.denoted ++ op.call.data).length := by
        by_cases hfirst : f.Drained op
        · rw [hstep hfirst]
        · exact le_of_lt (hstep' hfirst)
      have hrun_le : ((f.step op).run ops).denoted.length ≤
          ((f.step op).denoted ++ written ops).length := by
        by_cases hothers : Drains (f.step op) ops
        · rw [hrun hothers]
        · exact le_of_lt (hrun' hothers)
      change ((f.step op).run ops).denoted.length < _
      rw [hdata]
      simp only [length_append] at hstep_le hrun_le ⊢
      by_cases hfirst : f.Drained op
      · have hless := hrun' fun hothers => hnot ⟨hfirst, hothers⟩
        simp only [length_append] at hless
        omega
      · have hless := hstep' hfirst
        simp only [length_append] at hless
        omega

theorem step_isOpen (h : f.isOpen = false) (op : WriteOp) : (f.step op).isOpen = false := by
  obtain ⟨call, answers⟩ := op
  cases call with
  | write data =>
    rw [step, WriteFile.call, write, if_pos h]
    exact h
  | flush =>
    simp only [step, WriteFile.call, h]
    exact h
  | setBuffer mode size =>
    rw [step, WriteFile.call, setBuffer]
    split_ifs with hsize hopen
    · exact h
    · rw [h] at hopen
      cases hopen
    · exact h
  | close =>
    simp only [step, WriteFile.call, close, h]
    exact h

theorem run_isOpen {ops : List WriteOp} (h : f.isOpen = false) : (f.run ops).isOpen = false := by
  induction ops generalizing f with
  | nil => exact h
  | cons op ops ih => exact ih (step_isOpen h op)

theorem run_append (before behind : List WriteOp) :
    f.run (before ++ behind) = (f.run before).run behind := foldl_append ..

theorem writesReturned_before {before behind : List WriteOp}
    (h : WritesReturned f (before ++ behind)) : WritesReturned f before := by
  induction before generalizing f with
  | nil => trivial
  | cons op before ih => exact ⟨h.1, ih h.2⟩

theorem run_closed {ops : List WriteOp} (h : f.Good) (hwrites : WritesReturned f ops)
    (hclose : CloseReturned f ops) : (f.run ops).denoted = (f.run ops).content := by
  obtain ⟨before, op, behind, rfl, hcall, -, -⟩ := hclose
  have hgood := (run_spec h (writesReturned_before hwrites)).1
  have hclosed : ((f.run before).step op).isOpen = false := by
    rw [step, hcall]
    exact (close_spec hgood op.answers).2.1
  have hlast : (f.run (before ++ op :: behind)).isOpen = false := by
    rw [run_append]
    change (((f.run before).step op).run behind).isOpen = false
    exact run_isOpen hclosed
  have hall := (run_spec h hwrites).1.unopened hlast
  rw [denoted, pending_eq_nil hall, append_nil]

theorem openFile_good (content : List Byte) {mode : BufferMode} {size : Nat}
    (hsize : mode ≠ .none → 0 < size) : (openFile content mode size).Good := by
  constructor
  · intro buffer hbuffer
    rw [openFile] at hbuffer
    split_ifs at hbuffer with hmode
    cases hbuffer
    exact ⟨length_replicate, hsize hmode, Nat.zero_le _⟩
  · intro hclosed
    cases hclosed

theorem openFile_denoted (content : List Byte) (mode : BufferMode) (size : Nat) :
    (openFile content mode size).denoted = content := by
  rw [denoted, pending]
  simp [openFile]

end WriteFile

/-- **Nothing is lost silently**, in a run on a file opened for writing whose writes and whose
last close returned true, exactly if no buffer is thrown away with bytes in it: the file's
contents are then all data, in order. -/
theorem run_content_iff (content : List Byte) {mode : BufferMode} {size : Nat}
    (hsize : mode ≠ .none → 0 < size) {ops : List WriteOp}
    (hwrites : WritesReturned (.openFile content mode size) ops)
    (hclose : CloseReturned (.openFile content mode size) ops) :
    ((WriteFile.openFile content mode size).run ops).content = content ++ written ops ↔
      Drains (.openFile content mode size) ops := by
  have hgood := WriteFile.openFile_good content hsize
  obtain ⟨-, hall, hless⟩ := WriteFile.run_spec hgood hwrites
  rw [WriteFile.openFile_denoted, WriteFile.run_closed hgood hwrites hclose] at hall hless
  constructor
  · intro heq
    by_contra hnot
    have := hless hnot
    rw [heq] at this
    exact absurd this (lt_irrefl _)
  · exact hall

/-- The system takes all, and nothing fails. -/
def willing : Answers := ⟨fun _ => 4096, fun _ => true, true, true⟩

/-- The system takes one byte at a time, and nothing fails. -/
def byteByByte : Answers := ⟨fun _ => 1, fun _ => true, true, true⟩

/-- Two bytes go through a buffer of four. -/
def twoBytes (answers : Answers) : List WriteOp := [⟨.write [1, 2], answers⟩, ⟨.close, answers⟩]

theorem run_content_willing :
    ((WriteFile.openFile [] .full 4).run (twoBytes willing)).content = [1, 2] := by
  refine (run_content_iff [] (fun _ => by decide) ?_ ?_).mpr
    ⟨trivial, (by decide : 2 ≤ 4096), trivial⟩
  · refine ⟨?_, ?_, trivial⟩
    · intro data _
      rfl
    · intro data hcall
      cases hcall
  · exact ⟨[⟨.write [1, 2], willing⟩], ⟨.close, willing⟩, [], rfl, rfl, by simp, rfl⟩

/-- The second byte is lost where the close writes the first one only, and so it is where
the buffer is taken away before. -/
theorem run_content_lost :
    (WriteFile.openFile [] .full 4).outcomes (twoBytes byteByByte) =
        [.returned true, .returned true] ∧
      ((WriteFile.openFile [] .full 4).run (twoBytes byteByByte)).content = [1] ∧
      (WriteFile.openFile [] .full 4).outcomes
          [⟨.write [1, 2], byteByByte⟩, ⟨.setBuffer .none 0, byteByByte⟩, ⟨.close, willing⟩] =
        [.returned true, .returned true, .returned true] ∧
      ((WriteFile.openFile [] .full 4).run
          [⟨.write [1, 2], byteByByte⟩, ⟨.setBuffer .none 0, byteByByte⟩,
            ⟨.close, willing⟩]).content = [1] := by
  refine ⟨by decide, by decide, by decide, by decide⟩

end Lhatove.Filesystem
