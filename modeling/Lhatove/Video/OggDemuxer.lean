import Lhatove.Common.FloatTypes
import Lhatove.Filesystem.NativeFile
import Lhatove.Lib.Loop

/-!
# The Ogg demuxer

`love::video::theora::OggDemuxer`, with the loops as the source has them: a call that does
not end is one whose result is `none`.

- libogg is a parameter, and so is how much a read of the file gives.
- `Reader` is what `seek` uses of a demuxer, so that the search over the file can be done
  on anything that reads pages.
- Positions in the search are numbers of type `double`: rational numbers, rounded after
  each operation. Of times only the comparisons are used.
-/

namespace Lhatove.Video

open Filesystem (FileContent ioRead)

/-! ## libogg -/

/-- What `ogg_sync_pageout` returns: 1, 0 or -1. -/
inductive PageOut (Page : Type)
  | page (page : Page)
  | needMore
  | lostSync

/-- libogg, as far as the demuxer uses it. `wrote` is `ogg_sync_buffer` with
`ogg_sync_wrote`; a packet is `none` where the result is not 1. A page has at most 255
segments, and so packets. -/
structure LibOgg (Sync Stream Page Packet : Type) where
  pageout : Sync → PageOut Page × Sync
  wrote : Sync → List Byte → Sync
  syncReset : Sync → Sync
  pageseek : Sync → Page → Sync × Page
  streamInit : Stream → Int → Stream
  streamClear : Stream → Stream
  streamReset : Stream → Stream
  streamCheck : Stream → Bool
  pagein : Stream → Page → Stream
  packetout : Stream → Option Packet × Stream
  packetpeek : Stream → Option Packet × Stream
  serialno : Page → Int
  bos : Page → Bool
  eos : Page → Bool
  packets : Page → Fin 256
  granulepos : Packet → Int
  data : Packet → List Byte

/-- `OggDemuxer`, with the position of its file and the packet of the caller. `reads`
counts the reads of the file. -/
structure OggDemuxer (Sync Stream Page Packet : Type) where
  position : Nat
  reads : Nat
  sync : Sync
  stream : Stream
  page : Page
  streamInited : Bool
  videoSerial : Int
  eos : Bool
  packet : Packet
  deriving DecidableEq

/-- `OggDemuxer::StreamType` -/
inductive StreamType
  | theora
  | unknown
  deriving DecidableEq

/-! ## Numbers -/

/-- The `double` nearest to a number; the positions are far from the largest one. -/
def toDouble (x : ℚ) : ℚ :=
  let exponent := max (-1074) (Int.log 2 |x| - 52)
  let nearest : ℚ := FloatValue.roundEven (|x| / 2 ^ exponent) * 2 ^ exponent
  if x < 0 then -nearest else nearest

def rewindThreshold : ℚ := toDouble (1 / 100)

/-- The comparisons of numbers of type `double` that `seek` makes with times. -/
structure Times (Time : Type) where
  lt : Time → Time → Bool
  le : Time → Time → Bool
  isMinusOne : Time → Bool
  rewind : Time → Bool

/-! ## The search -/

/-- What `seek` uses of a demuxer. `restart` is a seek of the file with `resync`. -/
structure Reader (σ Packet : Type) where
  restart : Nat → σ → σ
  readPage : LoopM String σ Unit
  readPacket : Bool → LoopM String σ Bool
  isEos : σ → Bool
  clearEos : σ → σ
  packets : σ → Fin 256
  packet : σ → Packet

/-- What is known of the target after a page: `result` is 0, negative or positive. -/
inductive Turn
  | found
  | later
  | earlier
  deriving DecidableEq

/-- `low` and `high` -/
structure Interval where
  low : ℚ
  high : ℚ

namespace Interval

/-- The condition of the loop. -/
def Wide (i : Interval) : Prop := rewindThreshold < toDouble (i.high - i.low)

instance (i : Interval) : Decidable i.Wide := inferInstanceAs (Decidable (_ < _))

def pos (i : Interval) : ℚ := toDouble (toDouble (i.high + i.low) / 2)

end Interval

namespace Reader

variable {σ Packet Time : Type} (R : Reader σ Packet) (times : Times Time)
variable (getTime : Int → Time) (granulepos : Packet → Int) (target : Time)

/-- What the packet says of the target, if anything. -/
def judge : LoopM String σ (Option Turn) := do
  let s ← LoopM.get
  let curTime := getTime (granulepos (R.packet s))
  let nextTime := getTime (granulepos (R.packet s) + 1)
  if times.isMinusOne curTime then return none
  else if times.le curTime target && times.lt target nextTime then return some .found
  else if times.lt target curTime then return some .earlier
  else return none

/-- One turn of the loop over the packets of the page. -/
def packetTurn (i : Nat) : LoopM String σ (Option Turn) := do
  let s ← LoopM.get
  if i < (R.packets s : Nat) then
    if 0 < i then
      let _ ← R.readPacket true
      R.judge times getTime granulepos target
    else R.judge times getTime granulepos target
  else return some .later

/-- The loop, from packet `i` on. No page has packet 255, so that 256 turns are enough. -/
def scan : Nat → Nat → LoopM String σ Turn
  | 0, _ => return .later
  | turns + 1, i => do
    match ← R.packetTurn times getTime granulepos target i with
    | some turn => return turn
    | none => scan turns (i + 1)

/-- The end of one pass of the loop: where it goes on, if it does. -/
def turn (pos : ℚ) (i : Interval) : LoopM String σ (Interval ⊕ Unit) := do
  match ← R.scan times getTime granulepos target 256 0 with
  | .found => return .inr ()
  | .later => return .inl { i with low := pos }
  | .earlier => return .inl { i with high := pos }

/-- One pass of the loop. -/
def pass (i : Interval) : LoopM String σ (Interval ⊕ Unit) := do
  if i.Wide then
    LoopM.modify (R.restart ⌊i.pos⌋₊)
    R.readPage
    let _ ← R.readPacket false
    if R.isEos (← LoopM.get) then
      LoopM.modify R.clearEos
      if i.pos < rewindThreshold then
        LoopM.modify (R.restart 0)
        let _ ← R.readPacket true
        R.turn times getTime granulepos target i.pos { i with high := i.pos }
      else return .inl { i with high := i.pos }
    else R.turn times getTime granulepos target i.pos i
  else return .inr ()

/-- The loop of `seek`. -/
def search (i : Interval) : LoopM String σ Unit :=
  LoopM.repeatM (R.pass times getTime granulepos target) i

end Reader

/-! ## The demuxer -/

section Demuxer

variable {Sync Stream Page Packet Time : Type} (L : LibOgg Sync Stream Page Packet)
variable (content : FileContent) (answers : Nat → Nat)

/-- A function of the demuxer. -/
abbrev Demux (Sync Stream Page Packet α : Type) :=
  LoopM String (OggDemuxer Sync Stream Page Packet) α

namespace OggDemuxer

/-- The body of the loop of `readPage`; `syncBuffer` is whether there is one. -/
def readBuffer (erroreof syncBuffer : Bool) (d : OggDemuxer Sync Stream Page Packet) :
    Demux Sync Stream Page Packet (Bool ⊕ Bool) := do
  if syncBuffer && !d.streamInited && !L.streamCheck d.stream then
    LoopM.set d
    LoopM.throw "Invalid stream"
  else
    let read := ioRead content d.position 8192 (answers d.reads)
    if read.isEmpty && erroreof then
      LoopM.set { d with reads := d.reads + 1 }
      return .inr false
    else
      LoopM.set { d with
        sync := L.wrote d.sync read
        position := d.position + read.length
        reads := d.reads + 1 }
      return .inl true

/-- One turn of the loop of `readPage`. -/
def readPageTurn (erroreof syncBuffer : Bool) : Demux Sync Stream Page Packet (Bool ⊕ Bool) := do
  let d ← LoopM.get
  match L.pageout d.sync with
  | (.page page, sync) =>
    LoopM.set { d with sync, page }
    return .inr true
  | (_, sync) => readBuffer L content answers erroreof syncBuffer { d with sync }

def readPage (erroreof : Bool) : Demux Sync Stream Page Packet Bool :=
  LoopM.repeatM (readPageTurn L content answers erroreof) false

/-- The page is the last one of the stream, and the caller can do without a packet. -/
def atEnd (mustSucceed : Bool) (d : OggDemuxer Sync Stream Page Packet) : Bool :=
  L.serialno d.page == d.videoSerial && L.eos d.page && !mustSucceed

/-- One turn of the inner loop of `readPacket`; true at the end of the stream. -/
def videoPageTurn (mustSucceed : Bool) : Demux Sync Stream Page Packet (Unit ⊕ Bool) := do
  let d ← LoopM.get
  if d.atEnd L mustSucceed then
    LoopM.set { d with eos := true }
    return .inr true
  else
    let _ ← readPage L content answers false
    let d ← LoopM.get
    if L.serialno d.page ≠ d.videoSerial then return .inl () else return .inr false

/-- The inner loop of `readPacket`. -/
def nextVideoPage (mustSucceed : Bool) : Demux Sync Stream Page Packet Bool :=
  LoopM.repeatM (fun _ => videoPageTurn L content answers mustSucceed) ()

/-- One turn of the loop of `readPacket`. -/
def packetTurn (mustSucceed : Bool) : Demux Sync Stream Page Packet (Unit ⊕ Bool) := do
  let d ← LoopM.get
  match L.packetout d.stream with
  | (some packet, stream) =>
    LoopM.set { d with stream, packet, eos := false }
    return .inr false
  | (none, stream) =>
    LoopM.set { d with stream }
    if ← nextVideoPage L content answers mustSucceed then return .inr true
    else
      LoopM.modify fun d => { d with stream := L.pagein d.stream d.page }
      return .inl ()

/-- The loop of `readPacket`. -/
def packetLoop (mustSucceed : Bool) : Demux Sync Stream Page Packet Bool :=
  LoopM.repeatM (fun _ => packetTurn L content answers mustSucceed) ()

def readPacket (mustSucceed : Bool) : Demux Sync Stream Page Packet Bool := do
  let d ← LoopM.get
  if !d.streamInited then
    LoopM.throw "Reading from OggDemuxer before initialization (engine bug)"
  else packetLoop L content answers mustSucceed

def resync (d : OggDemuxer Sync Stream Page Packet) : OggDemuxer Sync Stream Page Packet :=
  let (sync, page) := L.pageseek (L.syncReset d.sync) d.page
  { d with sync, page, stream := L.streamReset d.stream }

def determineType : Demux Sync Stream Page Packet StreamType := do
  let d ← LoopM.get
  match L.packetpeek d.stream with
  | (none, stream) =>
    LoopM.set { d with stream }
    return .unknown
  | (some packet, stream) =>
    LoopM.set { d with stream }
    let data := L.data packet
    if 7 ≤ data.length ∧ data.getD 0 0 &&& 0x80 ≠ 0 ∧
        (data.drop 1).take 6 = [0x74, 0x68, 0x65, 0x6F, 0x72, 0x61] then
      return .theora
    else return .unknown

/-- One turn of the loop of `findStream`. -/
def findStreamTurn : Demux Sync Stream Page Packet (Unit ⊕ StreamType) := do
  if ← readPage L content answers true then
    let d ← LoopM.get
    if !L.bos d.page then
      LoopM.set { d with
        streamInited := false
        stream := if d.streamInited then L.streamClear d.stream else d.stream
        sync := L.syncReset d.sync }
      return .inr .unknown
    else
      LoopM.set { d with
        videoSerial := L.serialno d.page
        stream := L.pagein (L.streamInit d.stream (L.serialno d.page)) d.page
        streamInited := true }
      match ← determineType L with
      | .theora => return .inr .theora
      | .unknown =>
        LoopM.modify fun d => { d with stream := L.streamClear d.stream, streamInited := false }
        return .inl ()
  else return .inr .unknown

def findStream : Demux Sync Stream Page Packet StreamType := do
  LoopM.modify fun d =>
    if d.streamInited then
      { d with
        eos := false
        streamInited := false
        position := 0
        stream := L.streamClear d.stream
        sync := L.syncReset d.sync }
    else d
  LoopM.repeatM (fun _ : Unit => findStreamTurn L content answers) ()

/-- A demuxer as a reader. -/
def reader : Reader (OggDemuxer Sync Stream Page Packet) Packet where
  restart pos d := { d with position := pos }.resync L
  readPage := do
    let _ ← readPage L content answers false
    return ()
  readPacket := readPacket L content answers
  isEos := eos
  clearEos d := { d with eos := false }
  packets d := L.packets d.page
  packet := packet

/-- Where the search starts. -/
def interval (times : Times Time) (getTime : Int → Time) (target : Time)
    (d : OggDemuxer Sync Stream Page Packet) : Interval :=
  let size := toDouble content.bytes.length
  let granulepos := L.granulepos d.packet
  if granulepos = -1 then ⟨0, size⟩
  else if times.lt (getTime granulepos) target then ⟨toDouble d.position, size⟩
  else if times.lt target (getTime granulepos) then ⟨0, toDouble d.position⟩
  else ⟨0, size⟩

def seek (times : Times Time) (getTime : Int → Time) (target : Time) :
    Demux Sync Stream Page Packet Bool := do
  LoopM.modify fun d => { d with eos := false }
  if times.rewind target then
    LoopM.modify ((reader L content answers).restart 0)
    let _ ← readPacket L content answers true
    return true
  else
    let d ← LoopM.get
    (reader L content answers).search times getTime L.granulepos target
      (d.interval L content times getTime target)
    return true

end OggDemuxer

end Demuxer

end Lhatove.Video
