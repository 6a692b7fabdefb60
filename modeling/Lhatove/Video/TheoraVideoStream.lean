import Lhatove.Video.OggDemuxer

/-!
# The Theora stream

`love::video::theora::TheoraVideoStream`: the constructor with `parseHeader`, the filling of
the back buffer by the worker, and `swapBuffers`.

- libtheora is a parameter (`LibTheora`). A decoder may be null, as in the source.
- What the constructor has allocated and not released is kept as a list (`live`), for the
  exceptions that leave it.
- A picture stands for the three planes that `th_decode_ycbcr_out` gives; a frame has the
  picture that was copied into it last, or the blank one.
- `threadedFillBackBuffer` is what it does before it takes the lock (`decodeFrames`), and
  the copying (`copied`) between the two times that it has it.
-/

namespace Lhatove.Video

open Filesystem (FileContent)

/-! ## libtheora -/

/-- `th_pixel_fmt` -/
inductive PixelFmt
  | pf420
  | rsvd
  | pf422
  | pf444
  deriving DecidableEq

/-- `th_info`, as far as it is used. -/
structure TheoraInfo where
  frameWidth : Nat
  frameHeight : Nat
  picWidth : Nat
  picHeight : Nat
  picX : Nat
  picY : Nat
  pixelFmt : PixelFmt
  deriving DecidableEq

/-- libtheora, as far as the stream uses it. `Headers` is a `th_info`, a `th_comment` and a
`th_setup_info`; `headersInit` is what they are before the first packet, and `hasSetup`
whether the last one is not null. -/
structure LibTheora (Packet Headers Decoder Picture Time : Type) where
  headersInit : Headers
  headerin : Headers → Packet → Int × Headers
  hasSetup : Headers → Bool
  info : Headers → TheoraInfo
  decodeAlloc : Headers → Option Decoder
  packetin : Decoder → Packet → (Int × Int) × Decoder
  setGranpos : Decoder → Int → Decoder
  ycbcrOut : Decoder → Picture
  granuleTime : Decoder → Int → Time

/-- The numbers of type `double` that the stream uses of time. -/
structure Clock (Time : Type) extends Times Time where
  zero : Time
  minusOne : Time

/-! Of a null decoder the functions answer `TH_EFAULT`, or -1, and leave what they should
fill as it was. -/

namespace LibTheora

variable {Packet Headers Decoder Picture Time : Type}
variable (T : LibTheora Packet Headers Decoder Picture Time)

/-- `th_decode_packetin`, with the position of the decoder -/
def decodePacketin (decoder : Option Decoder) (packet : Packet) :
    (Int × Int) × Option Decoder :=
  match decoder with
  | none => ((-1, 0), none)
  | some decoder => Prod.map id some (T.packetin decoder packet)

/-- `th_decode_ctl` with `TH_DECCTL_SET_GRANPOS` -/
def decodeCtl (decoder : Option Decoder) (granulepos : Int) : Option Decoder :=
  decoder.map fun decoder => T.setGranpos decoder granulepos

/-- `th_decode_ycbcr_out` -/
def decodeYcbcrOut (decoder : Option Decoder) : Option Picture :=
  decoder.map T.ycbcrOut

/-- `th_granule_time` -/
def decoderTime (clock : Clock Time) (decoder : Option Decoder) (granulepos : Int) : Time :=
  match decoder with
  | none => clock.minusOne
  | some decoder => T.granuleTime decoder granulepos

end LibTheora

/-- The planes of a picture, in the order of a `th_ycbcr_buffer`. -/
inductive Plane
  | y
  | cb
  | cr
  deriving DecidableEq

/-- Width and height of the planes of a picture: those of the frame for the first plane, and
as the pixel format has it for the others. -/
def planeSize (info : TheoraInfo) (plane : Plane) : Nat × Nat :=
  if plane = .y then (info.frameWidth, info.frameHeight)
  else
    match info.pixelFmt with
    | .pf420 => (info.frameWidth / 2, info.frameHeight / 2)
    | .pf422 => (info.frameWidth / 2, info.frameHeight)
    | _ => (info.frameWidth, info.frameHeight)

/-! ## The stream -/

/-- The value of an `int`. -/
def intOf (n : Int) : Int := n.bmod (2 ^ 32)

def scaleFormat (fmt : PixelFmt) (x y : Int) : Int × Int :=
  match fmt with
  | .pf420 => (x / 2, y / 2)
  | .pf422 => (x / 2, y)
  | _ => (x, y)

/-- `VideoStream::Frame`, with the sizes of its planes where they are allocated. -/
structure Frame (Picture : Type) where
  yw : Int := 0
  yh : Int := 0
  yplane : Option Int := none
  cw : Int := 0
  ch : Int := 0
  cbplane : Option Int := none
  crplane : Option Int := none
  picture : Option Picture := none
  deriving DecidableEq

/-- What the constructor allocates and has to release. -/
inductive Resource
  | videoInfo
  | frontBuffer
  | backBuffer
  | comment
  | setupInfo
  | decoder
  deriving DecidableEq

/-- What may be thrown: a `love::Exception`, or what `new` throws for a negative length. -/
inductive Thrown
  | love (message : String)
  | badArrayNewLength
  deriving DecidableEq

/-- `TheoraVideoStream`. The packet is that of its demuxer, and `headers` has its
`videoInfo`. -/
structure TheoraVideoStream (Demuxer Headers Decoder Picture Time : Type) where
  demuxer : Demuxer
  headerParsed : Bool
  headers : Headers
  decoder : Option Decoder
  frontBuffer : Frame Picture
  backBuffer : Frame Picture
  yPlaneXOffset : Int
  cPlaneXOffset : Int
  yPlaneYOffset : Int
  cPlaneYOffset : Int
  frameReady : Bool
  lastFrame : Time
  nextFrame : Time
  live : List Resource
  deriving DecidableEq

section Theora

variable {Sync Stream Page Packet Headers Decoder Picture Time : Type}
variable (L : LibOgg Sync Stream Page Packet) (content : FileContent) (answers : Nat → Nat)
variable (T : LibTheora Packet Headers Decoder Picture Time) (clock : Clock Time)

/-- A function of the stream. -/
abbrev Theora (Sync Stream Page Packet Headers Decoder Picture Time α : Type) :=
  LoopM Thrown
    (TheoraVideoStream (OggDemuxer Sync Stream Page Packet) Headers Decoder Picture Time) α

namespace TheoraVideoStream

/-- A function of the demuxer, called by the stream. -/
def demux {α : Type} (x : Demux Sync Stream Page Packet α) :
    Theora Sync Stream Page Packet Headers Decoder Picture Time α where
  run n s :=
    (x.run n s.demuxer).map fun r => (r.1.mapError Thrown.love, { s with demuxer := r.2 })
  mono n s r h := by
    obtain ⟨r', hr, rfl⟩ := Option.map_eq_some_iff.mp h
    rw [x.mono n _ _ hr]
    rfl

/-- The stream before the constructor's body, for a demuxer. -/
def unbuilt (d : OggDemuxer Sync Stream Page Packet) :
    TheoraVideoStream (OggDemuxer Sync Stream Page Packet) Headers Decoder Picture Time where
  demuxer := d
  headerParsed := false
  headers := T.headersInit
  decoder := none
  frontBuffer := {}
  backBuffer := {}
  yPlaneXOffset := 0
  cPlaneXOffset := 0
  yPlaneYOffset := 0
  cPlaneYOffset := 0
  frameReady := false
  lastFrame := clock.zero
  nextFrame := clock.zero
  live := []

/-! ### The headers -/

/-- A packet for `th_decode_headerin`. -/
def headerPacket : Theora Sync Stream Page Packet Headers Decoder Picture Time Int := do
  let _ ← demux (OggDemuxer.readPacket L content answers false)
  let s ← LoopM.get
  let (ret, headers) := T.headerin s.headers s.demuxer.packet
  LoopM.set { s with headers }
  return ret

/-- One turn of the loop of `parseHeader`. -/
def headerTurn (ret : Int) :
    Theora Sync Stream Page Packet Headers Decoder Picture Time (Int ⊕ Unit) := do
  if 0 < ret then
    let ret ← headerPacket L content answers T
    return .inl ret
  else return .inr ()

/-- `new unsigned char[n]`: the size of what is allocated. -/
def newArray (n : Int) : Except Thrown Int :=
  if intOf n < 0 then .error .badArrayNewLength else .ok (intOf n)

/-- What `parseHeader` makes of one of the buffers. -/
def makeFrame (info : TheoraInfo) : Except Thrown (Frame Picture) := do
  let yw := intOf info.picWidth
  let yh := intOf info.picHeight
  let c := scaleFormat info.pixelFmt yw yh
  let yplane ← newArray (yw * yh)
  let cbplane ← newArray (c.1 * c.2)
  let crplane ← newArray (c.1 * c.2)
  return { yw, yh, cw := c.1, ch := c.2, yplane := some yplane, cbplane := some cbplane,
           crplane := some crplane }

/-- An `Except` of the stream. -/
def ofExcept {α : Type} :
    Except Thrown α → Theora Sync Stream Page Packet Headers Decoder Picture Time α
  | .ok a => pure a
  | .error e => LoopM.throw e

/-- The end of `parseHeader`: the decoder and the buffers. -/
def makeDecoder : Theora Sync Stream Page Packet Headers Decoder Picture Time Unit := do
  let s ← LoopM.get
  let decoder := T.decodeAlloc s.headers
  let info := T.info s.headers
  let c := scaleFormat info.pixelFmt info.picX info.picY
  LoopM.set { s with
    decoder
    live := (if decoder.isSome then [.decoder] else []) ++ s.live
    yPlaneXOffset := info.picX
    yPlaneYOffset := info.picY
    cPlaneXOffset := c.1
    cPlaneYOffset := c.2 }
  let backBuffer ← ofExcept (makeFrame info)
  LoopM.modify fun s => { s with backBuffer }
  let frontBuffer ← ofExcept (makeFrame info)
  LoopM.modify fun s => { s with
    frontBuffer
    headerParsed := true
    decoder := (T.decodePacketin s.decoder s.demuxer.packet).2 }

/-- A resource is released. -/
def release (r : Resource) : Theora Sync Stream Page Packet Headers Decoder Picture Time Unit :=
  LoopM.modify fun s => { s with live := s.live.filter (· ≠ r) }

/-- The setup is there once a header has made it. -/
def noteSetup : Theora Sync Stream Page Packet Headers Decoder Picture Time Unit :=
  LoopM.modify fun s => { s with
    live := (if T.hasSetup s.headers then [.setupInfo] else []) ++ s.live }

/-- `parseHeader`. The setup that the headers have made is noted where it may be left
behind: before the exception, and before it is freed. -/
def parseHeader : Theora Sync Stream Page Packet Headers Decoder Picture Time Unit := do
  let s ← LoopM.get
  if s.headerParsed then return ()
  else
    LoopM.modify fun s => { s with live := .comment :: s.live }
    let ret ← headerPacket L content answers T
    if ret < 0 then
      noteSetup T
      release .comment
      LoopM.throw (.love "Could not find header")
    else
      LoopM.repeatM (headerTurn L content answers T) ret
      noteSetup T
      release .comment
      release .setupInfo
      makeDecoder T

/-- The handler of the constructor: of a `love::Exception`, and of no other. -/
def catchLove (x : Theora Sync Stream Page Packet Headers Decoder Picture Time Unit) :
    Theora Sync Stream Page Packet Headers Decoder Picture Time Unit where
  run n s :=
    (x.run n s).map fun r =>
      match r with
      | (.error (.love message), s) =>
        (.error (.love message), { s with
          live := s.live.filter fun r =>
            r ≠ .backBuffer ∧ r ≠ .frontBuffer ∧ r ≠ .videoInfo })
      | r => r
  mono n s r h := by
    obtain ⟨r', hr, rfl⟩ := Option.map_eq_some_iff.mp h
    rw [x.mono n _ _ hr]
    rfl

/-- The constructor, on a stream that is `unbuilt`. -/
def construct : Theora Sync Stream Page Packet Headers Decoder Picture Time Unit := do
  let type ← demux (OggDemuxer.findStream L content answers)
  if type ≠ .theora then LoopM.throw (.love "Invalid video file, video is not theora")
  else
    LoopM.modify fun s => { s with live := [.backBuffer, .frontBuffer, .videoInfo] }
    catchLove (parseHeader L content answers T)

/-! ### Filling the back buffer -/

/-- `seekDecoder`. The demuxer's `seek` always succeeds. -/
def seekDecoder (target : Time) :
    Theora Sync Stream Page Packet Headers Decoder Picture Time Unit := do
  let s ← LoopM.get
  let success ← demux
    (OggDemuxer.seek L content answers clock.toTimes (T.decoderTime clock s.decoder) target)
  if !success then return ()
  else
    LoopM.modify fun s => { s with
      lastFrame := clock.minusOne
      nextFrame := clock.minusOne
      decoder := T.decodeCtl s.decoder (L.granulepos s.demuxer.packet) }

/-- One turn of the inner loop: a packet for the decoder. At the end of the stream there is
none, and the position of the decoder is given when it has taken one. -/
def packetTurn :
    Theora Sync Stream Page Packet Headers Decoder Picture Time (Unit ⊕ Option Int) := do
  if ← demux (OggDemuxer.readPacket L content answers false) then return .inr none
  else
    LoopM.modify fun s =>
      if 0 < L.granulepos s.demuxer.packet then
        { s with decoder := T.decodeCtl s.decoder (L.granulepos s.demuxer.packet) }
      else s
    let s ← LoopM.get
    let ((ret, decoderPosition), decoder) := T.decodePacketin s.decoder s.demuxer.packet
    LoopM.set { s with decoder }
    if ret ≠ 0 then return .inl () else return .inr (some decoderPosition)

/-- The variables of the loop: `framesBehind`, `failedSeek`, and `bufferinfo` once there is
a frame. -/
structure Behind (Picture : Type) where
  framesBehind : Nat := 0
  failedSeek : Bool := false
  bufferinfo : Option (Option Picture) := none

/-- What a fill does before it copies: the function returns early, or it copies a picture if
there is one. -/
inductive Fill (Picture : Type)
  | returned
  | done (bufferinfo : Option (Option Picture))
  deriving DecidableEq

/-- If the decoder can't catch up, seek. -/
def catchUp (position : Time) (b : Behind Picture) :
    Theora Sync Stream Page Packet Headers Decoder Picture Time (Behind Picture) := do
  if 5 < b.framesBehind ∧ !b.failedSeek then
    seekDecoder L content answers T clock position
    return { b with framesBehind := 0, failedSeek := true }
  else return { b with framesBehind := b.framesBehind + 1 }

/-- One turn of the loop of `threadedFillBackBuffer`. -/
def frameTurn (position : Time) (b : Behind Picture) :
    Theora Sync Stream Page Packet Headers Decoder Picture Time
      (Behind Picture ⊕ Fill Picture) := do
  let s ← LoopM.get
  if !s.demuxer.eos && clock.le s.nextFrame position then
    let b ← catchUp L content answers T clock position b
    let s ← LoopM.get
    let bufferinfo := some (T.decodeYcbcrOut s.decoder)
    match ← LoopM.repeatM (fun _ : Unit => packetTurn L content answers T) () with
    | none => return .inr .returned
    | some decoderPosition =>
      LoopM.modify fun s => { s with
        lastFrame := s.nextFrame
        nextFrame := T.decoderTime clock s.decoder decoderPosition }
      return .inl { b with bufferinfo }
  else return .inr (.done b.bufferinfo)

/-- `threadedFillBackBuffer` at a position of the sync, up to the copying. -/
def decodeFrames (position : Time) :
    Theora Sync Stream Page Packet Headers Decoder Picture Time (Fill Picture) := do
  let s ← LoopM.get
  if clock.lt position s.lastFrame then seekDecoder L content answers T clock position
  LoopM.repeatM (frameTurn L content answers T clock position) {}

/-! ### The swap -/

/-- `swapBuffers`; `playing` is what the sync says. -/
def swapBuffers (playing : Bool)
    (s : TheoraVideoStream (OggDemuxer Sync Stream Page Packet) Headers Decoder Picture Time) :
    Bool × TheoraVideoStream (OggDemuxer Sync Stream Page Packet) Headers Decoder Picture Time :=
  if s.demuxer.eos then (false, s)
  else if !playing then (false, s)
  else if !s.frameReady then (false, s)
  else (true, { s with
    frontBuffer := s.backBuffer
    backBuffer := s.frontBuffer
    frameReady := false })

end TheoraVideoStream

end Theora

/-! ### The copying -/

/-- One `memcpy` of the filling: a row of a plane of the picture, to a place in the plane of
the back buffer. -/
structure RowCopy where
  plane : Plane
  row : Int
  column : Int
  length : Int
  target : Int
  size : Option Int

/-- The row lies in the plane of the picture, and its place in that of the buffer. -/
def RowCopy.Inside (info : TheoraInfo) (c : RowCopy) : Prop :=
  0 ≤ c.length ∧
  0 ≤ c.column ∧ c.column + c.length ≤ (planeSize info c.plane).1 ∧
  0 ≤ c.row ∧ c.row < (planeSize info c.plane).2 ∧
  ∃ size, c.size = some size ∧ 0 ≤ c.target ∧ c.target + c.length ≤ size

namespace TheoraVideoStream

variable {Demuxer Headers Decoder Picture Time : Type}

/-- The rows of the plane `plane` that a fill copies. -/
def planeRows (plane : Plane) (width height xOffset yOffset : Int) (size : Option Int) :
    List RowCopy :=
  (List.range height.toNat).map fun y : Nat =>
    ⟨plane, y + yOffset, xOffset, width, intOf (width * y), size⟩

/-- What a fill of a buffer copies. -/
def rowCopies (s : TheoraVideoStream Demuxer Headers Decoder Picture Time)
    (buffer : Frame Picture) : List RowCopy :=
  planeRows .y buffer.yw buffer.yh s.yPlaneXOffset s.yPlaneYOffset buffer.yplane ++
    (planeRows .cb buffer.cw buffer.ch s.cPlaneXOffset s.cPlaneYOffset buffer.cbplane ++
      planeRows .cr buffer.cw buffer.ch s.cPlaneXOffset s.cPlaneYOffset buffer.crplane)

/-- The end of a fill: the picture is in the back buffer, and may be shown. -/
def copied (s : TheoraVideoStream Demuxer Headers Decoder Picture Time)
    (picture : Option Picture) : TheoraVideoStream Demuxer Headers Decoder Picture Time :=
  { s with backBuffer := { s.backBuffer with picture }, frameReady := true }

end TheoraVideoStream

end Lhatove.Video
