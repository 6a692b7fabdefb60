import Lhatove.Filesystem.NativeFile

/-!
# Reading with a buffer

- `Reads`: the position that a file is at, whatever is in its buffer;
- `bufferedRead_spec`: the loop reads on from there;
- `call_reads`: each call answers what the position says;
- `replies_eq`: a run answers what the same run without a buffer answers.
-/

namespace Lhatove.Filesystem

open NativeFile List NativeFile

variable {content : FileContent}

/-! ## The position -/

/-- A file is at a position: its stream is, or what the buffer still holds are the bytes
from there to the stream. -/
inductive Reads (content : FileContent) (f : NativeFile) (p : Nat) : Prop
  | direct : f.buffer = none → f.position = p → Reads content f p
  | buffered (buf : List Byte) (used pending : Nat) : f.buffer = some buf → f.bufferUsed = used →
      f.bufferSize = (used + pending : Nat) → 0 < used + pending → buf.length = used + pending →
      f.position = p + pending → buf.drop used = (content.bytes.drop p).take pending →
      Reads content f p

variable {f : NativeFile} {p : Nat}

theorem Reads.tell (h : Reads content f p) : f.tell = p := by
  cases h with
  | direct hbuffer hposition =>
    rw [NativeFile.tell, hbuffer, hposition]
    simp
  | buffered buf used pending hbuffer hused hsize _ _ hposition _ =>
    rw [NativeFile.tell, hbuffer, hused, hsize, hposition]
    simp

variable {g : NativeFile}

theorem Reads.isEOF (hf : Reads content f p) (hg : Reads content g p) :
    f.isEOF content = g.isEOF content := by
  rw [NativeFile.isEOF, NativeFile.isEOF, hf.tell, hg.tell]

/-! ## Seeks -/

variable {pos : Int} {origin : SeekOrigin}

theorem ioSeek_lt {position : Nat}
    (h : ioSeek content position pos origin = some p) : p < 2 ^ 63 := by
  rw [ioSeek.eq_def] at h
  dsimp only at h
  split_ifs at h with hrange
  cases h
  omega

/-- **After a flush** the stream is where the file is. -/
theorem Reads.flush (h : Reads content f p) (hp : p < 2 ^ 63) :
    ∃ f', f.flush content = (true, f') ∧ f'.position = p ∧
      (∀ position, Reads content { f' with position } position) ∧
      (f.buffer = none → f'.buffer = none) := by
  cases h with
  | direct hbuffer hposition =>
    refine ⟨f, by rw [NativeFile.flush, hbuffer]; rfl, hposition, ?_, id⟩
    exact fun position => .direct hbuffer rfl
  | buffered buf used pending hbuffer hused hsize hpos hlength hposition hdrop =>
    have hseek : ioSeek content f.position (f.bufferUsed - f.bufferSize) .current = some p := by
      rw [ioSeek.eq_def, hused, hsize, hposition]
      dsimp only
      rw [if_pos (by omega)]
      congr 1
      omega
    refine ⟨{ f with position := p, bufferUsed := f.bufferSize }, ?_, rfl, ?_, ?_⟩
    · rw [NativeFile.flush, hbuffer, hseek]
      rfl
    · intro position
      refine .buffered buf (used + pending) 0 hbuffer hsize hsize hpos hlength rfl ?_
      rw [drop_of_length_le hlength.le, take_zero]
    · intro hnone
      rw [hnone] at hbuffer
      cases hbuffer

theorem pending_le {buf : List Byte} {used pending : Nat} (hlength : buf.length = used + pending)
    (hdrop : buf.drop used = (content.bytes.drop p).take pending) (hpending : 0 < pending) :
    p + pending ≤ content.bytes.length := by
  have hle := congrArg length hdrop
  rw [length_drop, length_take, length_drop] at hle
  omega

/-- What a seek of a file with a buffer must not overflow. -/
def SeekFits (f : NativeFile) (pos : Int) (origin : SeekOrigin) : Prop :=
  f.buffer.isSome = true → origin = .start →
    IsInt64 (pos - f.tell) ∧ (0 ≤ pos - f.tell → IsInt64 (pos - f.tell + f.bufferUsed))

theorem Reads.seek_flush (h : Reads content f p) (hp : p < 2 ^ 63) (pos : Int)
    (origin : SeekOrigin) :
    ∃ f', (let (flushed, f) := f.flush content
      if flushed then
        match ioSeek content f.position pos origin with
        | none => some (false, f)
        | some position => some (true, { f with position })
      else some (false, f)) = some ((ioSeek content p pos origin).isSome, f') ∧
      Reads content f' ((ioSeek content p pos origin).getD p) := by
  obtain ⟨f', hflush, hposition, hreads, -⟩ := h.flush hp
  rw [hflush]
  dsimp only
  rw [if_pos rfl, hposition]
  cases hseek : ioSeek content p pos origin with
  | none =>
    have hp' := hreads f'.position
    refine ⟨f', rfl, ?_⟩
    rw [← hposition]
    exact hp'
  | some position => exact ⟨_, rfl, hreads position⟩

/-- **A seek** leads to where the stream's own leads. -/
theorem Reads.seek (h : Reads content f p) (hp : p < 2 ^ 63) (hfits : SeekFits f pos origin) :
    ∃ f', f.seek content pos origin = some ((ioSeek content p pos origin).isSome, f') ∧
      Reads content f' ((ioSeek content p pos origin).getD p) := by
  rw [NativeFile.seek.eq_def]
  by_cases hwithin : f.buffer.isSome = true ∧ origin = .start
  swap
  · rw [if_neg fun h => hwithin h.1, if_neg fun h => hwithin h.1, if_neg fun h => hwithin h.1]
    exact h.seek_flush hp pos origin
  obtain ⟨hoffset, hsum⟩ := hfits hwithin.1 hwithin.2
  rw [if_neg fun h => h.2 hoffset, if_neg fun h => h.2.2 (hsum h.2.1)]
  by_cases hin : 0 ≤ pos - f.tell ∧ pos - f.tell + f.bufferUsed < f.bufferSize
  swap
  · rw [if_neg fun h => hin h.2]
    exact h.seek_flush hp pos origin
  -- The position is in what the buffer still holds.
  rw [if_pos ⟨hwithin, hin.1, hin.2⟩]
  obtain ⟨hsome, rfl⟩ := hwithin
  rw [h.tell] at hin ⊢
  cases h with
  | direct hbuffer _ =>
    rw [hbuffer] at hsome
    cases hsome
  | buffered buf used pending hbuffer hused hsize hpos hlength hposition hdrop =>
    obtain ⟨ahead, rfl⟩ : ∃ ahead : Nat, pos = p + ahead := ⟨(pos - p).toNat, by omega⟩
    have hend := pending_le hlength hdrop (by omega)
    have hfile := content.size_lt
    have hseek : ioSeek content p (p + ahead : Nat) .start = some (p + ahead) := by
      rw [ioSeek.eq_def]
      dsimp only
      rw [if_pos (by omega)]
      congr 1
      omega
    rw [Nat.cast_add] at hseek
    rw [hseek]
    refine ⟨_, rfl, .buffered buf (used + ahead) (pending - ahead) hbuffer ?_ ?_ ?_ ?_ ?_ ?_⟩
    · show f.bufferUsed + ((p : Int) + ahead - p) = (used + ahead : Nat)
      omega
    · show f.bufferSize = (used + ahead + (pending - ahead) : Nat)
      omega
    · omega
    · omega
    · show f.position = p + ahead + (pending - ahead)
      omega
    · rw [← drop_drop, hdrop, drop_take, drop_drop]
      rfl

/-! ## Reads -/

/-- **The buffer is filled** from where the file is, when nothing is left in it. -/
theorem Reads.fill {buf : List Byte} {used : Nat} (hbuffer : f.buffer = some buf)
    (hused : f.bufferUsed = used) (hsize : f.bufferSize = used) (hpos : 0 < used)
    (hlength : buf.length = used) (answer : Nat) :
    Reads content (f.fill content answer) f.position ∧
      (f.fill content answer).buffer.isSome = true := by
  have hle := (@readCount_le content f.position used answer).1
  rw [← ioRead_length] at hle
  rw [fill.eq_def]
  dsimp only
  rw [hbuffer, hsize, Int.toNat_natCast, Option.getD_some]
  generalize hdata : ioRead content f.position used answer = data at hle ⊢
  have htake : data = (content.bytes.drop f.position).take data.length := by
    rw [← hdata, ioRead_length, ioRead]
  obtain ⟨free, rfl⟩ : ∃ free, used = free + data.length := ⟨used - data.length, by omega⟩
  have hfree : ((free + data.length : Nat) : Int) - data.length = free := by omega
  have hfilled : (overwrite buf 0 data).length = free + data.length := by
    rw [overwrite_length (by omega), hlength]
  refine ⟨?_, rfl⟩
  rw [hfree]
  refine .buffered _ free data.length rfl rfl rfl hpos ?_ rfl ?_
  · split_ifs with hmove
    · rw [Int.toNat_natCast, overwrite_length (by omega), hfilled]
    · exact hfilled
  · rw [← htake]
    split_ifs with hmove
    · have hpiece := @overwrite_piece (overwrite buf 0 data) data free (by omega)
      rw [take_of_length_le (by
        rw [length_drop, overwrite_length (by omega), hfilled]; omega)] at hpiece
      exact hpiece
    · -- Nothing was read, or the buffer is full.
      by_cases hnil : data = []
      · subst hnil
        exact drop_of_length_le (by rw [hfilled]; simp)
      · obtain rfl : free = 0 := by
          by_contra hne
          exact hmove ⟨hnil, by omega⟩
        rw [drop_zero, overwrite, take_zero, nil_append, Nat.zero_add,
          drop_of_length_le (by omega), append_nil]

theorem Reads.empty (h : Reads content f p) (hbuffer : f.buffer.isSome = true)
    (hempty : ¬ 0 < f.bufferSize - f.bufferUsed) (answer : Nat) :
    f.position = p ∧ 0 < f.bufferSize.toNat ∧ Reads content (f.fill content answer) p ∧
      (f.fill content answer).buffer.isSome = true := by
  cases h with
  | direct hnone _ =>
    rw [hnone] at hbuffer
    cases hbuffer
  | buffered buf used pending hsome hused hsize hpos hlength hposition hdrop =>
    obtain rfl : pending = 0 := by omega
    obtain ⟨hreads, hfilled⟩ := @Reads.fill content f buf used hsome hused hsize hpos hlength answer
    rw [hposition] at hreads
    exact ⟨hposition, by omega, hreads, hfilled⟩

theorem Reads.copy (h : Reads content f p) (hbuffer : f.buffer.isSome = true) {count : Nat}
    (hcount : (count : Int) ≤ f.bufferSize - f.bufferUsed) :
    ((f.buffer.getD []).drop f.bufferUsed.toNat).take count = (content.bytes.drop p).take count ∧
      ((content.bytes.drop p).take count).length = count ∧
      Reads content { f with bufferUsed := f.bufferUsed + count } (p + count) := by
  cases h with
  | direct hnone _ =>
    rw [hnone] at hbuffer
    cases hbuffer
  | buffered buf used pending hsome hused hsize hpos hlength hposition hdrop =>
    obtain ⟨rest, rfl⟩ : ∃ rest, pending = count + rest := ⟨pending - count, by omega⟩
    have hlengths := congrArg length hdrop
    rw [length_drop, length_take, length_drop] at hlengths
    refine ⟨?_, ?_, .buffered buf (used + count) rest hsome ?_ ?_ ?_ ?_ ?_ ?_⟩
    · rw [hsome, hused, Int.toNat_natCast, Option.getD_some, hdrop, take_take,
        Nat.min_eq_left (Nat.le_add_right count rest)]
    · rw [length_take, length_drop]
      omega
    · show f.bufferUsed + count = _
      omega
    · show f.bufferSize = _
      omega
    · omega
    · omega
    · show f.position = _
      omega
    · rw [← drop_drop, hdrop, drop_take, drop_drop, Nat.add_sub_cancel_left]

/-- **The loop** reads what follows, as far as there is any, and is behind it then. -/
theorem bufferedRead_spec (answers : Nat → Nat) (h : Reads content f p)
    (hbuffer : f.buffer.isSome = true) (size call : Nat) :
    ∃ f', f.bufferedRead content answers size call =
        (((content.bytes.drop p).take size).length, (content.bytes.drop p).take size, f') ∧
      Reads content f' (p + ((content.bytes.drop p).take size).length) := by
  induction f, size, call using bufferedRead.induct content answers generalizing p with
  | case1 f call =>
    rw [bufferedRead, if_pos rfl, take_zero]
    exact ⟨f, rfl, h⟩
  | case2 f size call hsize havailable =>
    rename_i copy _ _ _ _ ih
    have hcopy : (copy : Int) ≤ f.bufferSize - f.bufferUsed := by omega
    obtain ⟨hdata, hlength, hreads⟩ := h.copy hbuffer hcopy
    obtain ⟨f', hrest, hreads'⟩ := ih hreads hbuffer
    have hall : (content.bytes.drop p).take size = (content.bytes.drop p).take copy ++
        (content.bytes.drop (p + copy)).take (size - copy) := by
      rw [← drop_drop, ← take_add, Nat.add_sub_cancel' (Nat.min_le_left ..)]
    rw [hall, length_append, hlength]
    refine ⟨f', ?_, by rwa [Nat.add_assoc] at hreads'⟩
    rw [bufferedRead, if_neg hsize, if_pos havailable]
    dsimp only
    rw [hrest, hdata]
  | case3 f size call hsize hempty hread =>
    obtain ⟨hposition, hpos, hreads, -⟩ := h.empty hbuffer hempty (answers call)
    have hend := ioRead_eq_nil hpos hread
    rw [hposition] at hend
    rw [bufferedRead, if_neg hsize, if_neg hempty, if_pos hread, hend, take_nil]
    exact ⟨_, rfl, hreads⟩
  | case4 f size call hsize hempty hread ih =>
    obtain ⟨-, -, hreads, hfilled⟩ := h.empty hbuffer hempty (answers call)
    rw [bufferedRead, if_neg hsize, if_neg hempty, if_neg hread]
    exact ih hreads hfilled

/-- `SDL_ReadIO` reads all that was asked for, as far as there is any. -/
def ReadsAll (content : FileContent) (position : Nat) (size : Int) (answer : Nat) : Prop :=
  readCount content position size.toNat answer =
    min size.toNat (content.bytes.length - position)

/-- **A read** answers what follows. -/
theorem Reads.read (h : Reads content f p) {size : Int} (hsize : ¬ size < 0) {answers : Nat → Nat}
    (hall : f.buffer = none → ReadsAll content f.position size (answers 0)) :
    ∃ f', f.read content size answers = (.read ((content.bytes.drop p).take size.toNat).length
        ((content.bytes.drop p).take size.toNat), f') ∧
      Reads content f' (p + ((content.bytes.drop p).take size.toNat).length) := by
  rw [NativeFile.read, if_neg hsize]
  cases hbuffer : f.buffer with
  | none =>
    have hposition : f.position = p := by
      cases h with
      | direct _ hposition => exact hposition
      | buffered buf _ _ hsome =>
        rw [hbuffer] at hsome
        cases hsome
    have hdata : ioRead content f.position size.toNat (answers 0) =
        (content.bytes.drop p).take size.toNat := by
      rw [ioRead, hall hbuffer, hposition, ← length_drop, ← take_eq_take_min]
    rw [Option.isSome_none, if_neg (by decide)]
    rw [hdata, hposition]
    exact ⟨_, rfl, .direct rfl rfl⟩
  | some buf =>
    obtain ⟨f', hread, hreads⟩ := bufferedRead_spec answers h (by rw [hbuffer]; rfl) size.toNat 0
    rw [Option.isSome_some, if_pos rfl, hread]
    exact ⟨f', rfl, hreads⟩

theorem Reads.setBuffer (h : Reads content f p) (hp : p < 2 ^ 63) (mode : BufferMode) (size : Int)
    (room : Bool) :
    Reads content (f.setBuffer content mode size room).2 p := by
  rw [NativeFile.setBuffer]
  by_cases hsize : size < 0
  · rw [if_pos hsize]
    exact h
  obtain ⟨f', hflush, hposition, hreads, -⟩ := h.flush hp
  have hreads : Reads content f' p := by
    have hreads' := hreads f'.position
    rw [← hposition]
    exact hreads'
  rw [if_neg hsize, hflush]
  dsimp only
  rw [if_pos rfl, setupBuffering]
  by_cases hmode : mode = .none
  · rw [if_pos hmode]
    exact .direct rfl hposition
  rw [if_neg hmode, if_neg hmode]
  cases room with
  | false => exact hreads
  | true =>
    obtain ⟨count, hcount, hpos⟩ : ∃ count : Nat,
        (if size = 0 then defaultBufferSize else size) = count ∧ 0 < count := by
      split_ifs with hzero
      · exact ⟨8192, rfl, by decide⟩
      · exact ⟨size.toNat, by omega, by omega⟩
    rw [hcount]
    refine .buffered _ count 0 rfl rfl rfl hpos length_replicate hposition ?_
    exact drop_of_length_le length_replicate.le

/-! ## Runs -/

/-- What a call relies on: reads without a buffer give all that was asked for, and seeks
with one do not overflow. -/
def FileOp.Meets (content : FileContent) (f g : NativeFile) (op : FileOp) : Prop :=
  match op.call with
  | .read size =>
    (f.buffer = none → ReadsAll content f.position size (op.answers 0)) ∧
      ReadsAll content g.position size (op.plainAnswers 0)
  | .seek pos origin => SeekFits f pos origin
  | _ => True

/-- All calls of a run meet the condition: `f` is the file, and `g` is the one without a
buffer. -/
def AllMeet (content : FileContent) (f g : NativeFile) : List FileOp → Prop
  | [] => True
  | op :: ops => op.Meets content f g ∧ ∀ r r' f' g',
    f.call content op.answers op.call = some (r, f') →
      g.plainCall content op.plainAnswers op.call = some (r', g') → AllMeet content f' g' ops

theorem seekFits_of_none (hplain : g.buffer = none) (pos : Int)
    (origin : SeekOrigin) : SeekFits g pos origin := by
  intro hsome
  rw [hplain] at hsome
  cases hsome

theorem flush_plain (hplain : g.buffer = none) : g.flush content = (true, g) := by
  rw [NativeFile.flush, hplain]
  rfl

theorem seek_plain {g' : NativeFile} (hplain : g.buffer = none) {ok : Bool}
    (h : g.seek content pos origin = some (ok, g')) :
    g'.buffer = none := by
  rw [NativeFile.seek, hplain] at h
  simp only [Option.isSome_none, Bool.false_eq_true, false_and, if_false, flush_plain hplain,
    if_true] at h
  split at h
  all_goals
    cases h
    exact hplain

theorem read_plain (hplain : g.buffer = none) (size : Int) (answers : Nat → Nat) :
    (g.read content size answers).2.buffer = none := by
  rw [NativeFile.read]
  split
  · exact hplain
  · rw [hplain, Option.isSome_none, if_neg (by decide)]

/-- **One call** answers the same with a buffer and without one. -/
theorem call_same (hf : Reads content f p) (hg : Reads content g p) (hplain : g.buffer = none)
    (hp : p < 2 ^ 63) {op : FileOp} (hmeets : op.Meets content f g) :
    ∃ r f' g' p', f.call content op.answers op.call = some (r, f') ∧
      g.plainCall content op.plainAnswers op.call = some (r, g') ∧
      Reads content f' p' ∧ Reads content g' p' ∧ g'.buffer = none ∧ p' < 2 ^ 63 := by
  obtain ⟨call, answers, plainAnswers⟩ := op
  cases call with
  | read size =>
    by_cases hsize : size < 0
    · have hthrows : ∀ (h : NativeFile) answers,
          h.read content size answers = (.exception "Invalid read size.", h) := by
        intro h answers
        rw [NativeFile.read, if_pos hsize]
      refine ⟨some (.exception "Invalid read size."), f, g, p, ?_, ?_, hf, hg, hplain, hp⟩
      · dsimp only [NativeFile.call]
        rw [hthrows]
      · dsimp only [plainCall, NativeFile.call]
        rw [hthrows]
    obtain ⟨f', hread, hf'⟩ := hf.read hsize hmeets.1
    obtain ⟨g', hread', hg'⟩ := hg.read hsize fun _ => hmeets.2
    refine ⟨some (.read ((content.bytes.drop p).take size.toNat).length
      ((content.bytes.drop p).take size.toNat)), f', g', _, ?_, ?_, hf', hg', ?_, ?_⟩
    · dsimp only [NativeFile.call]
      rw [hread]
    · dsimp only [plainCall, NativeFile.call]
      rw [hread']
    · have hnone := @read_plain content g hplain size plainAnswers
      rw [hread'] at hnone
      exact hnone
    · have hfile := content.size_lt
      rw [length_take, length_drop]
      omega
  | seek pos origin =>
    obtain ⟨f', hseek, hf'⟩ := hf.seek hp hmeets
    obtain ⟨g', hseek', hg'⟩ := hg.seek hp (seekFits_of_none hplain pos origin)
    refine ⟨some (.seek (ioSeek content p pos origin).isSome), f', g', _, ?_, ?_, hf', hg',
      seek_plain hplain hseek', ?_⟩
    · dsimp only [NativeFile.call]
      rw [hseek]
      rfl
    · dsimp only [plainCall, NativeFile.call]
      rw [hseek']
      rfl
    · cases hto : ioSeek content p pos origin with
      | none => exact hp
      | some p' => exact ioSeek_lt hto
  | tell =>
    refine ⟨some (.tell f.tell), f, g, p, rfl, ?_, hf, hg, hplain, hp⟩
    dsimp only [plainCall, NativeFile.call]
    rw [hf.tell, hg.tell]
  | isEOF =>
    refine ⟨some (.isEOF (f.isEOF content)), f, g, p, rfl, ?_, hf, hg, hplain, hp⟩
    dsimp only [plainCall, NativeFile.call]
    rw [hf.isEOF hg]
  | setBuffer mode size room =>
    exact ⟨none, _, g, p, rfl, rfl, hf.setBuffer hp mode size room, hg, hplain, hp⟩

theorem replies_same (hf : Reads content f p) (hg : Reads content g p) (hplain : g.buffer = none)
    (hp : p < 2 ^ 63) {ops : List FileOp} (hmeet : AllMeet content f g ops) :
    ∃ rs, replies content f ops = some rs ∧ plainReplies content g ops = some rs := by
  induction ops generalizing f g p with
  | nil => exact ⟨[], rfl, rfl⟩
  | cons op ops ih =>
    obtain ⟨hop, hmeet⟩ := hmeet
    obtain ⟨r, f', g', p', hcall, hcall', hf', hg', hplain', hp'⟩ := call_same hf hg hplain hp hop
    obtain ⟨rs, hrest, hrest'⟩ := ih hf' hg' hplain' hp' (hmeet r r f' g' hcall hcall')
    refine ⟨r.toList ++ rs, ?_, ?_⟩
    · rw [replies, hcall]
      dsimp only [bind, Option.bind]
      rw [hrest]
      rfl
    · rw [plainReplies, hcall']
      dsimp only [bind, Option.bind]
      rw [hrest']
      rfl

/-- **Reading with a buffer**: a run of calls answers what the same calls answer without
any buffer, if all its reads without a buffer are whole and its seeks do not overflow. -/
theorem replies_eq {ops : List FileOp} (h : AllMeet content opened opened ops) :
    ∃ rs, replies content opened ops = some rs ∧ plainReplies content opened ops = some rs :=
  replies_same (.direct rfl rfl) (.direct rfl rfl) rfl (by decide) h

/-- A file of three bytes, a buffer of two, and a seek in front of the end. -/
theorem replies_eq_short : ∃ rs,
    replies ⟨[7, 8, 9], by decide⟩ opened
      [⟨.setBuffer .full 2 true, id, id⟩, ⟨.seek (-2) .finish, id, id⟩,
        ⟨.read 2, fun _ => 1, fun _ => 2⟩] = some rs ∧
    plainReplies ⟨[7, 8, 9], by decide⟩ opened
      [⟨.setBuffer .full 2 true, id, id⟩, ⟨.seek (-2) .finish, id, id⟩,
        ⟨.read 2, fun _ => 1, fun _ => 2⟩] = some rs := by
  refine replies_eq ⟨trivial, ?_⟩
  rintro r r' f' g' h h'
  cases h
  cases h'
  refine ⟨fun _ hstart => absurd hstart (by decide), ?_⟩
  rintro r r' f' g' h h'
  cases h
  cases h'
  exact ⟨⟨fun hnone => absurd hnone (by decide), rfl⟩, fun _ _ _ _ _ _ => trivial⟩

/-- With a buffer of four bytes, the sum that a seek to the last number of `int64` computes
overflows. Without a buffer it leads there. -/
theorem not_always_same : ¬ ∀ (content : FileContent) (ops : List FileOp),
    ∃ rs, replies content opened ops = some rs ∧ plainReplies content opened ops = some rs := by
  intro h
  obtain ⟨rs, hreplies, -⟩ := h ⟨[], by decide⟩
    [⟨.setBuffer .full 4 true, id, id⟩, ⟨.seek (2 ^ 63 - 1) .start, id, id⟩]
  have hnone : replies ⟨[], by decide⟩ opened
      [⟨.setBuffer .full 4 true, id, id⟩, ⟨.seek (2 ^ 63 - 1) .start, id, id⟩] = none := by
    decide
  cases hreplies

end Lhatove.Filesystem
