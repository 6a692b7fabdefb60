import Mathlib.Tactic

/-!
# The buffers of a source

`openal::Source` by itself: what it does with its own OpenAL buffers and with those that
are queued on the OpenAL source it plays with. The second are an argument here; they are
part of the device in `Pool.lean`.

What OpenAL and the decoder answer is an argument too. An unqueued buffer is one that was
queued first, and all of them can be unqueued once the OpenAL source was stopped. Where
the playback is (`offsetSamples`, `toLoop`) is left out.
-/

namespace Lhatove.Audio

open List List.Perm

/-- An OpenAL buffer, and the size of the data in it. -/
structure Buffer where
  name : Nat
  size : Nat
deriving DecidableEq

/-- The names of some buffers. -/
def names (l : List Buffer) : List Nat := l.map Buffer.name

/-- The bytes in some buffers. -/
def bytes (l : List Buffer) : Nat := (l.map Buffer.size).sum

inductive SourceType
  | static
  | stream
  | queue
deriving DecidableEq

/-- `Source`. `source` is the OpenAL source, `count` the reference count, and `generated`
has the names of all buffers that were generated for it. -/
structure Source where
  sourceType : SourceType
  sampleRate : Nat
  channels : Nat
  bitDepth : Nat
  looping : Bool
  source : Nat
  valid : Bool
  streamBuffers : List Buffer
  unusedBuffers : List Buffer
  bufferedBytes : Int
  buffers : Nat
  generated : List Nat
  count : Nat

/-! ## OpenAL and the decoder -/

/-- A number as `ALsizei`. -/
def toALsizei (n : Int) : Int := n.bmod (2 ^ 32)

/-- `alBufferData`. It keeps the data of before when the size is negative, or when there is
no memory for it (`stored`). -/
def alBufferData (b : Buffer) (size : Int) (stored : Bool) : Buffer :=
  if stored ∧ 0 ≤ toALsizei size then { b with size := (toALsizei size).toNat } else b

/-- What the decoder gives for a buffer, and whether it is at its end after that. -/
structure Chunk where
  decoded : Nat
  finished : Bool

/-- The next chunk. Without any the decoder has nothing more. -/
def nextChunk (chunks : List Chunk) : Chunk := chunks.headD ⟨0, true⟩

inductive ALError
  | noError
  | invalidValue
  | other
deriving DecidableEq

/-- The answers for `play`: of the decoder, of `alGetError`, and whether the state of the
OpenAL source is `AL_PLAYING`. -/
structure PlayAnswers where
  chunks : List Chunk
  error : ALError
  playing : Bool

/-- The answers for `update`. -/
structure UpdateAnswers where
  processed : Nat
  chunks : List Chunk
  decoderFinished : Bool
  stopped : Bool

namespace Source

/-! ## Constructors -/

def DEFAULT_BUFFERS : Nat := 8

def MAX_BUFFERS : Nat := 64

/-- A source that has just been made. OpenAL generates the buffers `generated`. -/
def init (sourceType : SourceType) (sampleRate channels bitDepth : Nat) (looping : Bool)
    (generated : List Nat) : Source where
  sourceType := sourceType
  sampleRate := sampleRate
  channels := channels
  bitDepth := bitDepth
  looping := looping
  source := 0
  valid := false
  streamBuffers := []
  unusedBuffers := (generated.map fun name => ⟨name, 0⟩).reverse
  bufferedBytes := 0
  buffers := generated.length
  generated := generated
  count := 1

def newStatic (sampleRate channels bitDepth : Nat) : Source :=
  init .static sampleRate channels bitDepth false []

/-- `generated` are the first of `DEFAULT_BUFFERS`, up to one that OpenAL cannot generate. -/
def newStream (sampleRate channels bitDepth : Nat) (generated : List Nat) : Source :=
  init .stream sampleRate channels bitDepth false (generated.take DEFAULT_BUFFERS)

/-- The number of buffers that a queueable source asks for. -/
def queueBuffers (b : Int) : Nat :=
  if b < 1 then DEFAULT_BUFFERS else if b > MAX_BUFFERS then MAX_BUFFERS else b.toNat

def newQueue (sampleRate bitDepth channels : Nat) (b : Int) (generated : List Nat) : Source :=
  init .queue sampleRate channels bitDepth false (generated.take (queueBuffers b))

/-- The copy constructor. -/
def clone (s : Source) (generated : List Nat) : Source :=
  init s.sourceType s.sampleRate s.channels s.bitDepth s.looping
    (if s.sourceType = .static then [] else generated.take s.buffers)

/-! ## Playing -/

/-- The bytes of a sample of all channels. -/
def frameSize (s : Source) : Nat := s.bitDepth / 8 * s.channels

/-- What `streamAtomic` does with the buffer. It answers how much was decoded. -/
def streamAtomic (b : Buffer) (chunk : Chunk) : Buffer × Nat :=
  (if 0 < chunk.decoded then { b with size := chunk.decoded } else b, chunk.decoded)

/-- The loop of `prepareAtomic` for a stream: the buffers it queues, and the others. -/
def prepareStream : List Buffer → List Chunk → List Buffer × List Buffer
  | [], _ => ([], [])
  | b :: unused, chunks =>
    let chunk := nextChunk chunks
    if (streamAtomic b chunk).2 = 0 then ([], (streamAtomic b chunk).1 :: unused)
    else if chunk.finished then ([(streamAtomic b chunk).1], unused)
    else
      ((streamAtomic b chunk).1 :: (prepareStream unused chunks.tail).1,
        (prepareStream unused chunks.tail).2)

/-- `prepareAtomic`: the source, and what is queued after it. `reset` has detached all that
was queued before. -/
def prepareAtomic (s : Source) (chunks : List Chunk) : Source × List Buffer :=
  match s.sourceType with
  | .static => (s, [])
  | .stream =>
    ({ s with unusedBuffers := (prepareStream s.unusedBuffers chunks).2 },
      (prepareStream s.unusedBuffers chunks).1)
  | .queue => ({ s with streamBuffers := [] }, s.streamBuffers)

/-- `teardownAtomic`, which unqueues all buffers. -/
def teardownAtomic (s : Source) (queued : List Buffer) : Source :=
  match s.sourceType with
  | .static => { s with valid := false }
  | .stream | .queue =>
    { s with unusedBuffers := queued.reverse ++ s.unusedBuffers, valid := false }

/-- `isFinished`, when the source is valid. -/
def isFinished (s : Source) (a : UpdateAnswers) : Bool :=
  if s.sourceType = .stream ∧ (s.looping ∨ a.decoderFinished = false) then false else a.stopped

/-- The loop over the processed buffers of a stream: what is queued, what is unused, and
what the decoder has left. -/
def updateProcessed : Nat → List Buffer → List Buffer → List Chunk →
    List Buffer × List Buffer × List Chunk
  | 0, queued, unused, chunks => (queued, unused, chunks)
  | _ + 1, [], unused, chunks => ([], unused, chunks)
  | processed + 1, b :: queued, unused, chunks =>
    let stream := streamAtomic b (nextChunk chunks)
    if 0 < stream.2 then updateProcessed processed (queued ++ [stream.1]) unused chunks.tail
    else updateProcessed processed queued (stream.1 :: unused) chunks.tail

/-- The loop over the unused buffers of a stream. -/
def updateUnused : List Buffer → List Buffer → List Chunk → List Buffer × List Buffer
  | queued, [], _ => (queued, [])
  | queued, b :: unused, chunks =>
    let stream := streamAtomic b (nextChunk chunks)
    if 0 < stream.2 then updateUnused (queued ++ [stream.1]) unused chunks.tail
    else (queued, stream.1 :: unused)

def updateStream (s : Source) (queued : List Buffer) (a : UpdateAnswers) :
    Source × List Buffer :=
  let processed := updateProcessed a.processed queued s.unusedBuffers a.chunks
  let rest := updateUnused processed.1 processed.2.1 processed.2.2
  ({ s with unusedBuffers := rest.2 }, rest.1)

def updateQueue (s : Source) (queued : List Buffer) (a : UpdateAnswers) :
    Source × List Buffer :=
  ({ s with
      bufferedBytes := (queued.take a.processed).foldl
        (fun bytes b => toALsizei (bytes - b.size)) s.bufferedBytes
      unusedBuffers := (queued.take a.processed).reverse ++ s.unusedBuffers },
    queued.drop a.processed)

/-- `update`: whether the source goes on, the source, and what is queued. -/
def update (s : Source) (queued : List Buffer) (a : UpdateAnswers) :
    Bool × Source × List Buffer :=
  if s.valid then
    match s.sourceType with
    | .static => (!s.isFinished a, s, queued)
    | .stream => if s.isFinished a then (false, s, queued) else (true, s.updateStream queued a)
    | .queue => (!s.isFinished a, s.updateQueue queued a)
  else (false, s, queued)

/-! ## Data for a queueable source -/

/-- `queue`: its answer, the source, and what is queued on OpenAL's. -/
def queue (s : Source) (queued : List Buffer)
    (length dataSampleRate dataBitDepth dataChannels : Nat) (stored : Bool) :
    Except String (Bool × Source × List Buffer) :=
  if s.sourceType ≠ .queue then
    .error "Only queueable Sources can be queued with sound data."
  else if dataSampleRate ≠ s.sampleRate ∨ dataBitDepth ≠ s.bitDepth ∨
      dataChannels ≠ s.channels then
    .error "Queued sound data must have same format as sound Source."
  else if length % s.frameSize ≠ 0 then
    .error ("Data length must be a multiple of sample size (" ++ toString s.frameSize ++
      " bytes).")
  else if length = 0 then .ok (true, s, queued)
  else
    match s.unusedBuffers with
    | [] => .ok (false, s, queued)
    | buffer :: unused =>
      let buffer := alBufferData buffer length stored
      let s' : Source := { s with
        unusedBuffers := unused
        bufferedBytes := toALsizei (s.bufferedBytes + length) }
      if s.valid then .ok (true, s', queued ++ [buffer])
      else .ok (true, { s' with streamBuffers := s.streamBuffers ++ [buffer] }, queued)

/-- The loop of `seek` for a queueable source that does not play: "emulate AL behavior,
discarding buffer once playback head is past one". -/
def discard (frameSize : Nat) : Int → List Buffer → Int → List Buffer × Int
  | _, [], bytes => ([], bytes)
  | offset, b :: unused, bytes =>
    if offset < (b.size / frameSize : Nat) then (b :: unused, bytes)
    else discard frameSize (offset - (b.size / frameSize : Nat)) unused
      (toALsizei (bytes - b.size))

/-- `seek` for a queueable source that does not play. -/
def seekQueue (s : Source) (offsetSamples : Int) : Source :=
  let rest := discard s.frameSize offsetSamples s.unusedBuffers s.bufferedBytes
  { s with unusedBuffers := rest.1, bufferedBytes := rest.2 }

/-! ## Where the buffers are -/

/-- **The buffers of a source**: each is unused, waits for the source to play or is queued,
and none is twice. The bytes of a queueable one, which never loops, are those in buffers
that it will play. -/
structure Accounted (s : Source) (queued : List Buffer) : Prop where
  all_perm : (names (s.unusedBuffers ++ s.streamBuffers ++ queued)).Perm s.generated
  generated_nodup : s.generated.Nodup
  generated_static : s.sourceType = .static → s.generated = []
  bytes_eq : s.sourceType = .queue → s.bufferedBytes = bytes (s.streamBuffers ++ queued)
  bytes_lt : s.sourceType = .queue → bytes (s.streamBuffers ++ queued) < 2147483648
  looping : s.sourceType = .queue → s.looping = false

section Lists

variable {l l' : List Buffer} {b : Buffer}

@[simp] theorem names_nil : names [] = [] := rfl

@[simp] theorem names_cons : names (b :: l) = b.name :: names l := rfl

@[simp] theorem names_append : names (l ++ l') = names l ++ names l' := map_append

@[simp] theorem names_reverse : names l.reverse = (names l).reverse := map_reverse

@[simp] theorem bytes_nil : bytes [] = 0 := rfl

@[simp] theorem bytes_cons : bytes (b :: l) = b.size + bytes l := rfl

@[simp] theorem bytes_append : bytes (l ++ l') = bytes l + bytes l' := by
  rw [bytes, map_append, sum_append]
  rfl

theorem toALsizei_of_lt {n : Nat} (h : n < 2147483648) : toALsizei n = n := by
  exact Int.bmod_eq_of_le (by omega) (by omega)

@[simp] theorem streamAtomic_name (b : Buffer) (chunk : Chunk) :
    (streamAtomic b chunk).1.name = b.name := by
  rw [streamAtomic]
  split
  · rfl
  · rfl

theorem alBufferData_name (size : Int) (stored : Bool) :
    (alBufferData b size stored).name = b.name := by
  rw [alBufferData]
  split
  · rfl
  · rfl

theorem alBufferData_size {n : Nat} (h : n < 2147483648) : (alBufferData b n true).size = n := by
  rw [alBufferData, toALsizei_of_lt h, if_pos ⟨rfl, Int.natCast_nonneg n⟩]
  exact Int.toNat_natCast n

end Lists

section Loops

variable {queued unused : List Buffer} {chunks : List Chunk}

theorem prepareStream_names (unused : List Buffer) (chunks : List Chunk) :
    names (prepareStream unused chunks).1 ++ names (prepareStream unused chunks).2 =
      names unused := by
  induction unused generalizing chunks with
  | nil => rfl
  | cons b unused ih =>
    rw [prepareStream]
    split
    · rw [names_nil, names_cons, streamAtomic_name]
      rfl
    · split
      · rw [names_cons, names_nil, streamAtomic_name]
        rfl
      · rw [names_cons, streamAtomic_name, cons_append, ih, names_cons]

theorem updateProcessed_names (processed : Nat) (queued unused : List Buffer)
    (chunks : List Chunk) :
    (names (updateProcessed processed queued unused chunks).2.1 ++
      names (updateProcessed processed queued unused chunks).1).Perm
      (names unused ++ names queued) := by
  induction processed generalizing queued unused chunks with
  | zero => exact .refl _
  | succ processed ih =>
    cases queued with
    | nil => exact .refl _
    | cons b queued =>
      rw [updateProcessed]
      split
      · refine (ih _ _ _).trans ?_
        rw [names_append, names_cons, names_nil, streamAtomic_name, names_cons]
        exact append_left _ (perm_append_singleton _ _)
      · refine (ih _ _ _).trans ?_
        rw [names_cons, streamAtomic_name, names_cons]
        exact perm_middle.symm

theorem updateUnused_names (queued unused : List Buffer) (chunks : List Chunk) :
    (names (updateUnused queued unused chunks).2 ++
      names (updateUnused queued unused chunks).1).Perm (names unused ++ names queued) := by
  induction unused generalizing queued chunks with
  | nil => exact .refl _
  | cons b unused ih =>
    rw [updateUnused]
    split
    · refine (ih _ _).trans ?_
      rw [names_append, names_cons, names_nil, streamAtomic_name, names_cons]
      refine (append_left _ (perm_append_singleton _ _)).trans ?_
      exact perm_middle
    · rw [names_cons, streamAtomic_name, names_cons]

theorem foldl_bytes (l : List Buffer) {n m : Nat} (h : n = bytes l + m) (hn : n < 2147483648) :
    l.foldl (fun bytes b => toALsizei (bytes - b.size)) (n : Int) = m := by
  induction l generalizing n with
  | nil =>
    rw [bytes_nil, Nat.zero_add] at h
    rw [foldl_nil, h]
  | cons b l ih =>
    rw [bytes_cons] at h
    have hsub : ((n : Int) - b.size) = ((n - b.size : Nat) : Int) := by omega
    rw [foldl_cons, hsub, toALsizei_of_lt (by omega)]
    exact ih (by omega) (by omega)

end Loops

section Accounted

variable {s : Source} {queued : List Buffer}

theorem init_accounted {sourceType : SourceType} {sampleRate channels bitDepth : Nat}
    {looping : Bool} {generated : List Nat} (h : generated.Nodup)
    (hstatic : sourceType = .static → generated = [])
    (hlooping : sourceType = .queue → looping = false) :
    Accounted (init sourceType sampleRate channels bitDepth looping generated) [] := by
  constructor
  · change (Audio.names ((generated.map fun name => (⟨name, 0⟩ : Buffer)).reverse ++ [] ++ [])).Perm
      generated
    rw [append_nil, append_nil, names_reverse, Audio.names, map_map]
    refine (reverse_perm _).trans ?_
    change (generated.map id).Perm generated
    rw [map_id]
  · exact h
  · exact hstatic
  · intro _
    rfl
  · intro _
    change 0 < 2147483648
    norm_num
  · exact hlooping

theorem prepareAtomic_accounted (h : s.Accounted []) (chunks : List Chunk) :
    (s.prepareAtomic chunks).1.Accounted (s.prepareAtomic chunks).2 := by
  rw [prepareAtomic]
  split
  next hstatic => exact h
  next hstream =>
    constructor
    · have hperm := h.all_perm
      rw [append_nil, names_append, ← prepareStream_names s.unusedBuffers chunks] at hperm
      rw [names_append, names_append]
      refine .trans ?_ hperm
      rw [append_assoc]
      refine perm_append_comm.trans ?_
      rw [append_assoc, append_assoc]
      refine perm_append_comm_assoc _ _ _ |>.trans ?_
      exact append_left _ perm_append_comm
    · exact h.generated_nodup
    · exact h.generated_static
    · intro hqueue
      exact absurd (hstream.symm.trans hqueue) (by decide)
    · intro hqueue
      exact absurd (hstream.symm.trans hqueue) (by decide)
    · exact h.looping
  next hqueue =>
    constructor
    · have hperm := h.all_perm
      rw [append_nil] at hperm
      rw [append_nil]
      exact hperm
    · exact h.generated_nodup
    · exact h.generated_static
    · intro hqueue
      have hbytes := h.bytes_eq hqueue
      rw [append_nil] at hbytes
      exact hbytes
    · intro hqueue
      have hbytes := h.bytes_lt hqueue
      rw [append_nil] at hbytes
      exact hbytes
    · exact h.looping

theorem teardownAtomic_accounted (h : s.Accounted queued)
    (hqueued : s.sourceType = .queue → queued = []) : (s.teardownAtomic queued).Accounted [] := by
  have hunused : (names (queued.reverse ++ s.unusedBuffers ++ s.streamBuffers ++ [])).Perm
      s.generated := by
    refine .trans ?_ h.all_perm
    rw [append_nil, append_assoc, names_append, names_append, names_append, names_append,
      names_reverse]
    exact perm_append_comm.trans (append_left _ (reverse_perm _))
  rw [teardownAtomic]
  split
  next hstatic =>
    have hperm := h.all_perm
    rw [h.generated_static hstatic, perm_nil, names_append, append_eq_nil_iff] at hperm
    have hnil : queued = [] := map_eq_nil_iff.mp hperm.2
    rw [hnil] at h
    exact ⟨h.all_perm, h.generated_nodup, h.generated_static, h.bytes_eq, h.bytes_lt, h.looping⟩
  all_goals
    refine ⟨hunused, h.generated_nodup, h.generated_static, ?_, ?_, h.looping⟩
    · intro hqueue
      have hbytes := h.bytes_eq hqueue
      rw [hqueued hqueue] at hbytes
      exact hbytes
    · intro hqueue
      have hbytes := h.bytes_lt hqueue
      rw [hqueued hqueue] at hbytes
      exact hbytes

theorem updateStream_accounted (h : s.Accounted queued) (hstream : s.sourceType = .stream)
    (a : UpdateAnswers) : (s.updateStream queued a).1.Accounted (s.updateStream queued a).2 := by
  constructor
  · refine .trans ?_ h.all_perm
    have hunused := updateUnused_names
      (updateProcessed a.processed queued s.unusedBuffers a.chunks).1
      (updateProcessed a.processed queued s.unusedBuffers a.chunks).2.1
      (updateProcessed a.processed queued s.unusedBuffers a.chunks).2.2
    have hperm := hunused.trans
      (updateProcessed_names a.processed queued s.unusedBuffers a.chunks)
    rw [updateStream]
    simp only [names_append, append_assoc]
    refine (append_left _ perm_append_comm).trans ?_
    rw [← append_assoc]
    refine (hperm.append_right _).trans ?_
    rw [append_assoc]
    exact append_left _ perm_append_comm
  · exact h.generated_nodup
  · exact h.generated_static
  · intro hqueue
    exact absurd (hstream.symm.trans hqueue) (by decide)
  · intro hqueue
    exact absurd (hstream.symm.trans hqueue) (by decide)
  · exact h.looping

theorem updateQueue_accounted (h : s.Accounted queued) (hqueue : s.sourceType = .queue)
    (a : UpdateAnswers) : (s.updateQueue queued a).1.Accounted (s.updateQueue queued a).2 := by
  have hsplit := take_append_drop a.processed queued
  have hnames : names queued =
      names (queued.take a.processed) ++ names (queued.drop a.processed) := by
    rw [← names_append, hsplit]
  have hsum : bytes queued = bytes (queued.take a.processed) + bytes (queued.drop a.processed) := by
    rw [← bytes_append, hsplit]
  have hlt := h.bytes_lt hqueue
  rw [bytes_append] at hlt
  constructor
  · refine .trans ?_ h.all_perm
    simp only [updateQueue, names_append, names_reverse, hnames, append_assoc]
    refine (append_right _ (reverse_perm _)).trans ?_
    refine (perm_append_comm_assoc _ _ _).trans ?_
    exact append_left _ (perm_append_comm_assoc _ _ _)
  · exact h.generated_nodup
  · exact h.generated_static
  · intro _
    change (queued.take a.processed).foldl (fun bytes b => toALsizei (bytes - b.size))
      s.bufferedBytes = bytes (s.streamBuffers ++ queued.drop a.processed)
    rw [h.bytes_eq hqueue, bytes_append, bytes_append]
    exact foldl_bytes _ (by omega) hlt
  · intro _
    change bytes (s.streamBuffers ++ queued.drop a.processed) < 2147483648
    rw [bytes_append]
    omega
  · exact h.looping

theorem update_accounted (h : s.Accounted queued) (a : UpdateAnswers) :
    (s.update queued a).2.1.Accounted (s.update queued a).2.2 := by
  rw [update]
  split
  · split
    next hstatic => exact h
    next hstream =>
      split
      · exact h
      · exact updateStream_accounted h hstream a
    next hqueue => exact updateQueue_accounted h hqueue a
  · exact h

/-- A buffer with data goes from the unused ones to those that are played: it waits for the
source (`streamBuffers`) or is queued (`queued'`). -/
theorem queue_push (h : s.Accounted queued) {buffer : Buffer} {unused streamBuffers : List Buffer}
    (hunused : s.unusedBuffers = buffer :: unused) {length : Nat} {queued' : List Buffer}
    (hlt : s.sourceType = .queue → s.bufferedBytes + length < 2147483648)
    (hnames : (names streamBuffers ++ names queued').Perm
      (buffer.name :: (names s.streamBuffers ++ names queued)))
    (hbytes : s.sourceType = .queue →
      bytes streamBuffers + bytes queued' = bytes s.streamBuffers + bytes queued + length) :
    Accounted { s with
      unusedBuffers := unused
      streamBuffers
      bufferedBytes := toALsizei (s.bufferedBytes + length) } queued' := by
  constructor
  · refine .trans ?_ h.all_perm
    rw [hunused]
    simp only [names_append, names_cons, append_assoc]
    exact (hnames.append_left _).trans perm_middle
  · exact h.generated_nodup
  · exact h.generated_static
  · intro hqueue
    have heq := h.bytes_eq hqueue
    have hlt' := hlt hqueue
    rw [heq, bytes_append] at hlt' ⊢
    rw [bytes_append, hbytes hqueue, ← Nat.cast_add, toALsizei_of_lt (by omega)]
  · intro hqueue
    have heq := h.bytes_eq hqueue
    have hlt' := hlt hqueue
    rw [heq, bytes_append] at hlt'
    rw [bytes_append, hbytes hqueue]
    omega
  · exact h.looping

theorem queue_accounted (h : s.Accounted queued)
    {length dataSampleRate dataBitDepth dataChannels : Nat} {stored : Bool}
    (hstored : s.sourceType = .queue → s.unusedBuffers ≠ [] → length ≠ 0 →
      stored = true ∧ s.bufferedBytes + length < 2147483648)
    {b : Bool} {s' : Source} {queued' : List Buffer}
    (hok : s.queue queued length dataSampleRate dataBitDepth dataChannels stored =
      .ok (b, s', queued')) : s'.Accounted queued' := by
  rw [queue] at hok
  split at hok
  · cases hok
  next htype =>
    rw [not_not] at htype
    split at hok
    · cases hok
    · split at hok
      · cases hok
      · split at hok
        · cases hok
          exact h
        next hlength =>
          split at hok
          · cases hok
            exact h
          next buffer unused hunused =>
            obtain ⟨rfl, hlt⟩ := hstored htype (by rw [hunused]; exact cons_ne_nil _ _) hlength
            have hsize : (alBufferData buffer length true).size = length := by
              have heq := h.bytes_eq htype
              exact alBufferData_size (by omega)
            split at hok
            · cases hok
              refine queue_push h hunused (fun _ => hlt) ?_ ?_
              · rw [names_append, names_cons, alBufferData_name, names_nil, ← append_assoc]
                exact perm_append_singleton _ _
              · intro _
                rw [bytes_append, bytes_cons, hsize, bytes_nil]
                omega
            next hvalid =>
              cases hok
              refine queue_push h hunused (fun _ => hlt) ?_ ?_
              · rw [names_append, names_cons, alBufferData_name, names_nil]
                exact (perm_append_singleton _ _).append_right _
              · intro _
                rw [bytes_append, bytes_cons, hsize, bytes_nil]
                omega

theorem seekQueue_eq {offsetSamples : Int}
    (h : ∀ b, s.unusedBuffers.head? = some b → offsetSamples < (b.size / s.frameSize : Nat)) :
    s.seekQueue offsetSamples = s := by
  rw [seekQueue]
  have hdiscard : discard s.frameSize offsetSamples s.unusedBuffers s.bufferedBytes =
      (s.unusedBuffers, s.bufferedBytes) := by
    cases hunused : s.unusedBuffers with
    | nil => rfl
    | cons b unused =>
      rw [discard, if_pos (h b (by rw [hunused]; rfl))]
  rw [hdiscard]

end Accounted

/-! ## What is not changed -/

/-- A change that has nothing to do with the pool. -/
structure SameHandle (s s' : Source) : Prop where
  count : s'.count = s.count
  valid : s'.valid = s.valid
  source : s'.source = s.source

section Same

variable {s : Source} {queued : List Buffer}

theorem SameHandle.refl (s : Source) : SameHandle s s := ⟨rfl, rfl, rfl⟩

theorem prepareAtomic_same (chunks : List Chunk) : SameHandle s (s.prepareAtomic chunks).1 := by
  rw [prepareAtomic]
  split
  · exact .refl s
  all_goals exact ⟨rfl, rfl, rfl⟩

theorem teardownAtomic_count : (s.teardownAtomic queued).count = s.count := by
  rw [teardownAtomic]
  split <;> rfl

theorem teardownAtomic_valid : (s.teardownAtomic queued).valid = false := by
  rw [teardownAtomic]
  split <;> rfl

theorem update_same (a : UpdateAnswers) : SameHandle s (s.update queued a).2.1 := by
  rw [update]
  split
  · split
    · exact .refl s
    · split
      · exact .refl s
      · exact ⟨rfl, rfl, rfl⟩
    · exact ⟨rfl, rfl, rfl⟩
  · exact .refl s

theorem queue_same {length dataSampleRate dataBitDepth dataChannels : Nat} {stored b : Bool}
    {s' : Source} {queued' : List Buffer}
    (hok : s.queue queued length dataSampleRate dataBitDepth dataChannels stored =
      .ok (b, s', queued')) :
    SameHandle s s' ∧ (s.valid = false → queued' = queued) := by
  rw [queue] at hok
  repeat' split at hok
  all_goals
    cases hok
    try exact ⟨⟨rfl, rfl, rfl⟩, fun _ => rfl⟩
  next hvalid =>
    refine ⟨⟨rfl, rfl, rfl⟩, fun h => ?_⟩
    rw [hvalid] at h
    cases h

theorem queue_invalid (hvalid : s.valid = false)
    (length dataSampleRate dataBitDepth dataChannels : Nat) (stored : Bool) :
    s.queue queued length dataSampleRate dataBitDepth dataChannels stored =
      (s.queue [] length dataSampleRate dataBitDepth dataChannels stored).map
        fun r => (r.1, r.2.1, queued) := by
  rw [queue, queue]
  split_ifs with htype hformat hlength hempty htrue
  · rfl
  · rfl
  · rfl
  · rfl
  · exact absurd (hvalid.symm.trans htrue) Bool.false_ne_true
  · cases s.unusedBuffers with
    | nil | cons buffer unused => rfl

theorem queue_invalid_ok (hvalid : s.valid = false)
    {length dataSampleRate dataBitDepth dataChannels : Nat} {stored b : Bool}
    {s' : Source} {queued' : List Buffer}
    (hok : s.queue queued length dataSampleRate dataBitDepth dataChannels stored =
      .ok (b, s', queued')) :
    s.queue [] length dataSampleRate dataBitDepth dataChannels stored = .ok (b, s', []) := by
  rw [queue_invalid hvalid] at hok
  cases hnil : s.queue [] length dataSampleRate dataBitDepth dataChannels stored with
  | error => rw [hnil] at hok; cases hok
  | ok r =>
    obtain ⟨b', s'', queued''⟩ := r
    rw [hnil] at hok
    cases hok
    rw [(queue_same hnil).2 hvalid]

theorem seekQueue_same (offsetSamples : Int) : SameHandle s (s.seekQueue offsetSamples) :=
  ⟨rfl, rfl, rfl⟩

end Same

end Source

end Lhatove.Audio
