import Lhatove.Audio.SourceBuffers
import Lhatove.Lib.Transition
import Mathlib.Data.List.AList

/-!
# The pool

`openal::Pool`, and `openal::Source` as far as it works with it: `play`, `stop`, `pause`,
`seek`, their forms for lists, and `Pool::update`.

- `Device`: the pool, the sources by their addresses, and what is queued on each OpenAL
  source;
- `pool`: calls on a pool, in any order. Each is one step, since they lock the pool.

The answers of OpenAL and of the decoders are arguments of a call.
-/

namespace Lhatove.Audio

/-- `Pool`. `sources` are the OpenAL sources that it generated. -/
structure Pool where
  sources : List Nat
  available : List Nat
  playing : AList fun _ : Nat => Nat
  disconnectNotified : Bool

/-- A pool and the sources. `owners` counts the references to each source that others
than the pool hold. `misused` is set once a source is used that is no more. -/
structure Device where
  pool : Pool
  heap : Nat → Option Source
  queued : Nat → List Buffer
  owners : Nat → Nat
  misused : Bool

namespace Device

/-! ## Objects -/

def setSource (k : Nat) (s : Source) (d : Device) : Device :=
  { d with heap := Function.update d.heap k (some s) }

def setQueued (id : Nat) (queued : List Buffer) (d : Device) : Device :=
  { d with queued := Function.update d.queued id queued }

def setPool (pool : Pool) (d : Device) : Device := { d with pool }

def setOwners (k n : Nat) (d : Device) : Device :=
  { d with owners := Function.update d.owners k n }

def free (k : Nat) (d : Device) : Device := { d with heap := Function.update d.heap k none }

def misuse (d : Device) : Device := { d with misused := true }

/-- A source that is used. -/
def useSource (k : Nat) (d : Device) (f : Source → Device) : Device :=
  match d.heap k with
  | none => d.misuse
  | some s => f s

/-- `Object::retain` -/
def retain (k : Nat) (d : Device) : Device :=
  d.useSource k fun s => d.setSource k { s with count := s.count + 1 }

/-- The id of a source goes back to the pool. -/
def giveBack (k id : Nat) (d : Device) : Device :=
  d.setPool { d.pool with
    available := d.pool.available ++ [id]
    playing := d.pool.playing.erase k }

/-- `~Source`. The pool releases one that it thinks is playing once more. -/
def destroy (k : Nat) (s : Source) (d : Device) : Device :=
  if s.valid then
    match d.pool.playing.lookup k with
    | none => d.free k
    | some id => ((d.setQueued s.source []).giveBack k id).misuse.free k
  else d.free k

/-- `Object::release` -/
def release (k : Nat) (d : Device) : Device :=
  d.useSource k fun s =>
    if s.count = 1 then d.destroy k s else d.setSource k { s with count := s.count - 1 }

/-! ## The pool -/

/-- `getPlayingSources`, by their addresses. -/
def getPlayingSources (d : Device) : List Nat := d.pool.playing.keys.insertionSort (· ≤ ·)

/-- A source gets an available id. -/
def takeId (k out : Nat) (available : List Nat) (d : Device) : Device :=
  (d.setPool ⟨d.pool.sources, available, d.pool.playing.insert k out,
    d.pool.disconnectNotified⟩).retain k

/-- `assignSource`: the id and `wasPlaying`. -/
def assignSource (k : Nat) (d : Device) : Option (Nat × Bool) × Device :=
  match d.pool.playing.lookup k with
  | some out => (some (out, true), d)
  | none =>
    match d.pool.available with
    | [] => (none, d)
    | out :: available => (some (out, false), d.takeId k out available)

/-- `teardownAtomic`, of a source on its OpenAL source. -/
def teardownAtomic (k : Nat) (s : Source) (d : Device) : Device :=
  (d.setSource k (s.teardownAtomic (d.queued s.source))).setQueued s.source []

def stopAtomic (k : Nat) (d : Device) : Device :=
  d.useSource k fun s => if s.valid then d.teardownAtomic k s else d

def releaseSource (k : Nat) (stop : Bool) (d : Device) : Device :=
  match d.pool.playing.lookup k with
  | none => d
  | some id => ((if stop then d.stopAtomic k else d).release k).giveBack k id

/-! ## A source -/

def stop (k : Nat) (d : Device) : Device :=
  d.useSource k fun s => if s.valid then d.releaseSource k true else d

def setValid (k : Nat) (valid : Bool) (d : Device) : Device :=
  d.useSource k fun s => d.setSource k { s with valid }

/-- The source gets the OpenAL source `id`, and `prepareAtomic`. -/
def prepare (k id : Nat) (chunks : List Chunk) (d : Device) : Device :=
  d.useSource k fun s =>
    (d.setSource k ({ s with source := id }.prepareAtomic chunks).1).setQueued id
      ({ s with source := id }.prepareAtomic chunks).2

/-- Whether OpenAL plays a source after `alSourcePlay`. -/
def started (s : Source) (a : PlayAnswers) : Bool :=
  decide (a.error = .noError) && (decide (s.sourceType ≠ .stream) || a.playing)

def playAtomic (k id : Nat) (a : PlayAnswers) (d : Device) : Bool × Device :=
  match d.heap k with
  | none => (false, d.misuse)
  | some s =>
    if started s a then (true, d.prepare k id a.chunks)
    else (false, ((d.prepare k id a.chunks).setValid k true).stop k)

/-- Whether `resumeAtomic` finds that it "failed to play or nothing to play". -/
def resumeFails (s : Source) (a : PlayAnswers) : Bool :=
  s.valid && !a.playing &&
    (decide (a.error = .invalidValue) ||
      decide (s.sourceType = .stream ∧ s.unusedBuffers.length = s.buffers))

def resumeAtomic (k : Nat) (a : PlayAnswers) (d : Device) : Device :=
  d.useSource k fun s => if resumeFails s a then d.stop k else d

def play (k : Nat) (a : PlayAnswers) (d : Device) : Bool × Device :=
  match d.assignSource k with
  | (none, d) => (false, d.setValid k false)
  | (some (out, wasPlaying), d) =>
    if wasPlaying then (true, (d.resumeAtomic k a).setValid k true)
    else ((d.playAtomic k out a).1, (d.playAtomic k out a).2.setValid k (d.playAtomic k out a).1)

/-- The answers for `seek`: whether the source is playing, the answers when it is played
again, whether OpenAL then knows of an error or, about a stream, does not play it, and the
answers when it is played once more. -/
structure SeekAnswers where
  playing : Bool
  play : PlayAnswers
  invalidValue : Bool
  stillPlaying : Bool
  again : PlayAnswers

/-- The part of `seek` for the type of the source. -/
def seekType (k : Nat) (offsetSamples : Int) (a : SeekAnswers) (d : Device) : Device :=
  d.useSource k fun s =>
    match s.sourceType with
    | .static => d
    | .stream =>
      let d' := if s.valid then d.stop k else d
      if s.valid && a.playing then (d'.play k a.play).2 else d'
    | .queue => if s.valid then d else d.setSource k (s.seekQueue offsetSamples)

/-- The end of `seek`, for a source that was playing. -/
def seekCheck (k : Nat) (a : SeekAnswers) (d : Device) : Device :=
  d.useSource k fun s =>
    if a.invalidValue || decide (s.sourceType = .stream) && !(s.valid && a.stillPlaying) then
      let d' := d.stop k
      if s.looping then (d'.play k a.again).2 else d'
    else d

def seek (k : Nat) (offsetSamples : Int) (a : SeekAnswers) (d : Device) : Device :=
  d.useSource k fun s =>
    let d' := d.seekType k offsetSamples a
    if s.valid && a.playing then d'.seekCheck k a else d'

/-- `queue`. It throws before it changes anything. -/
def queue (k length dataSampleRate dataBitDepth dataChannels : Nat) (stored : Bool)
    (d : Device) : Device :=
  d.useSource k fun s =>
    match s.queue (d.queued s.source) length dataSampleRate dataBitDepth dataChannels stored with
    | .error _ => d
    | .ok (_, s', queued) =>
      if s.valid then (d.setSource k s').setQueued s.source queued else d.setSource k s'

/-- `setLooping`. It throws for a queueable source. -/
def setLooping (k : Nat) (enable : Bool) (d : Device) : Device :=
  d.useSource k fun s =>
    if s.sourceType = .queue then d else d.setSource k { s with looping := enable }

/-! ## Lists of sources -/

/-- The first loop of `play`: ids and `wasPlaying` of the sources that get one, and whether
all do. -/
def assignSources : List Nat → Device → List (Nat × Nat × Bool) × Bool × Device
  | [], d => ([], true, d)
  | k :: l, d =>
    match d.assignSource k with
    | (none, d) => ([], false, d)
    | (some (out, wasPlaying), d) =>
      ((k, out, wasPlaying) :: (assignSources l d).1, (assignSources l d).2)

/-- What happens when one of the sources gets no id. -/
def releaseAssigned : List (Nat × Nat × Bool) → Device → Device
  | [], d => d
  | (k, _, wasPlaying) :: l, d =>
    releaseAssigned l (if wasPlaying then d else d.releaseSource k false)

/-- The second loop of `play`. -/
def prepareAssigned (chunks : Nat → List Chunk) : List (Nat × Nat × Bool) → Device → Device
  | [], d => d
  | (k, out, wasPlaying) :: l, d =>
    prepareAssigned chunks l (if wasPlaying then d else d.prepare k out (chunks k))

/-- The last loop of `play`. -/
def validate (success : Bool) : List Nat → Device → Device
  | [], d => d
  | k :: l, d =>
    validate success l
      (d.useSource k fun s => d.setSource k { s with valid := s.valid || success })

/-- `play`. OpenAL answers `success` to `alSourcePlayv`. -/
def playList (l : List Nat) (chunks : Nat → List Chunk) (success : Bool) (d : Device) :
    Bool × Device :=
  if l = [] then (true, d)
  else
    match d.assignSources l with
    | (assigned, false, d) => (false, d.releaseAssigned assigned)
    | (assigned, true, d) => (success, (d.prepareAssigned chunks assigned).validate success l)

/-- `stop` -/
def stopList : List Nat → Device → Device
  | [], d => d
  | k :: l, d =>
    stopList l ((d.useSource k fun s => if s.valid then d.teardownAtomic k s else d).releaseSource
      k false)

/-- `putSourcesAsSharedTable`: the message holds a reference to each. -/
def putSourcesAsSharedTable : List Nat → Device → Device
  | [], d => d
  | k :: l, d => putSourcesAsSharedTable l ((d.retain k).setOwners k (d.owners k + 1))

/-! ## `update` -/

/-- The start of `update`. `connected` is what OpenAL says of the device, if it can say
it and there is an event module. -/
def checkConnected (connected : Option Bool) (d : Device) : Device :=
  match connected with
  | none => d
  | some true => d.setPool { d.pool with disconnectNotified := false }
  | some false =>
    if d.pool.disconnectNotified then d
    else
      let d' := (d.stopList d.getPlayingSources).putSourcesAsSharedTable d.getPlayingSources
      d'.setPool { d'.pool with disconnectNotified := true }

/-- `Source::update` -/
def updateSource (k : Nat) (s : Source) (a : UpdateAnswers) (d : Device) : Device :=
  if s.valid then
    (d.setSource k (s.update (d.queued s.source) a).2.1).setQueued s.source
      (s.update (d.queued s.source) a).2.2
  else d

/-- `Source::update` for each playing source, and those that have ended. -/
def updateSources (a : Nat → UpdateAnswers) : List Nat → Device → List Nat × Device
  | [], d => ([], d)
  | k :: l, d =>
    match d.heap k with
    | none => updateSources a l d.misuse
    | some s =>
      let rest := updateSources a l (d.updateSource k s (a k))
      if (s.update (d.queued s.source) (a k)).1 then rest else (k :: rest.1, rest.2)

def releaseSources : List Nat → Device → Device
  | [], d => d
  | k :: l, d => releaseSources l (d.releaseSource k true)

def update (connected : Option Bool) (a : Nat → UpdateAnswers) (d : Device) : Device :=
  let d := d.checkConnected connected
  releaseSources (updateSources a d.getPlayingSources d).1
    (updateSources a d.getPlayingSources d).2

/-! ## Runs -/

/-- A new source at an address. Whoever made it has a reference. -/
def addSource (k : Nat) (s : Source) (d : Device) : Device := (d.setSource k s).setOwners k 1

/-- Names of buffers that OpenAL can generate: none is in use. -/
def Fresh (generated : List Nat) (d : Device) : Prop :=
  generated.Nodup ∧ ∀ k s, d.heap k = some s → ∀ name ∈ generated, name ∉ s.generated

end Device

inductive PoolOp
  | newStatic (k sampleRate channels bitDepth : Nat)
  | newStream (k sampleRate channels bitDepth : Nat) (generated : List Nat)
  | newQueue (k sampleRate bitDepth channels : Nat) (b : Int) (generated : List Nat)
  | clone (k k' : Nat) (generated : List Nat)
  | retain (k : Nat)
  | release (k : Nat)
  | setLooping (k : Nat) (enable : Bool)
  | queue (k length dataSampleRate dataBitDepth dataChannels : Nat) (stored : Bool)
  | seek (k : Nat) (offsetSamples : Int) (a : Device.SeekAnswers)
  | play (k : Nat) (a : PlayAnswers)
  | pause (k : Nat)
  | stop (k : Nat)
  | playList (l : List Nat) (chunks : Nat → List Chunk) (success : Bool)
  | pauseList (l : List Nat)
  | stopList (l : List Nat)
  | pauseAll
  | stopAll
  | update (connected : Option Bool) (a : Nat → UpdateAnswers)

namespace Device

/-- A call, and the device after it. A source is called only by someone who holds a
reference to it, a new one is where none is, and its buffers have new names. What OpenAL
does about pausing is not part of the device. -/
inductive Step (d : Device) : PoolOp → Device → Prop
  | newStatic (k sampleRate channels bitDepth : Nat) : d.heap k = none →
    Step d (.newStatic k sampleRate channels bitDepth)
      (d.addSource k (.newStatic sampleRate channels bitDepth))
  | newStream (k sampleRate channels bitDepth : Nat) (generated : List Nat) :
    d.heap k = none → d.Fresh generated →
    Step d (.newStream k sampleRate channels bitDepth generated)
      (d.addSource k (.newStream sampleRate channels bitDepth generated))
  | newQueue (k sampleRate bitDepth channels : Nat) (b : Int) (generated : List Nat) :
    d.heap k = none → d.Fresh generated →
    Step d (.newQueue k sampleRate bitDepth channels b generated)
      (d.addSource k (.newQueue sampleRate bitDepth channels b generated))
  | clone (k k' : Nat) (generated : List Nat) (s : Source) : 0 < d.owners k →
    d.heap k = some s → d.heap k' = none → d.Fresh generated →
    Step d (.clone k k' generated) (d.addSource k' (s.clone generated))
  | retain (k : Nat) : 0 < d.owners k →
    Step d (.retain k) ((d.retain k).setOwners k (d.owners k + 1))
  | release (k : Nat) : 0 < d.owners k →
    Step d (.release k) ((d.setOwners k (d.owners k - 1)).release k)
  | setLooping (k : Nat) (enable : Bool) : 0 < d.owners k →
    Step d (.setLooping k enable) (d.setLooping k enable)
  | queue (k length dataSampleRate dataBitDepth dataChannels : Nat) (stored : Bool) :
    0 < d.owners k →
    Step d (.queue k length dataSampleRate dataBitDepth dataChannels stored)
      (d.queue k length dataSampleRate dataBitDepth dataChannels stored)
  | seek (k : Nat) (offsetSamples : Int) (a : SeekAnswers) : 0 < d.owners k →
    Step d (.seek k offsetSamples a) (d.seek k offsetSamples a)
  | play (k : Nat) (a : PlayAnswers) : 0 < d.owners k → Step d (.play k a) (d.play k a).2
  | pause (k : Nat) : 0 < d.owners k → Step d (.pause k) d
  | stop (k : Nat) : 0 < d.owners k → Step d (.stop k) (d.stop k)
  | playList (l : List Nat) (chunks : Nat → List Chunk) (success : Bool) :
    (∀ k ∈ l, 0 < d.owners k) →
    Step d (.playList l chunks success) (d.playList l chunks success).2
  | pauseList (l : List Nat) : (∀ k ∈ l, 0 < d.owners k) → Step d (.pauseList l) d
  | stopList (l : List Nat) : (∀ k ∈ l, 0 < d.owners k) → Step d (.stopList l) (d.stopList l)
  | pauseAll : Step d .pauseAll d
  | stopAll : Step d .stopAll (d.stopList d.getPlayingSources)
  | update (connected : Option Bool) (a : Nat → UpdateAnswers) :
    Step d (.update connected a) (d.update connected a)

/-- Before any source is made: all ids are available, at least four of them. -/
def Initial (d : Device) : Prop :=
  4 ≤ d.pool.sources.length ∧ d.pool.sources.Nodup ∧ d.pool.available = d.pool.sources ∧
    d.pool.playing = ∅ ∧ d.pool.disconnectNotified = false ∧ (∀ k, d.heap k = none) ∧
    (∀ id, d.queued id = []) ∧ (∀ k, d.owners k = 0) ∧ d.misused = false

end Device

/-- Calls on a pool and on the sources that play with it, in any order. -/
def pool : System Device PoolOp := ⟨Device.Initial, fun d op d' => d.Step op d'⟩

end Lhatove.Audio
