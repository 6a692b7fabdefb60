import Lhatove.Video.OggRuns
import Lhatove.Video.TheoraVideoStream

/-!
# When a Theora stream is whole

What the constructor of `TheoraVideoStream` leaves, for every file.

- `headersFrom`: the headers that are read from the pages ahead;
- `parseHeader_parsed`: what `parseHeader` comes to;
- `rowCopies_inside`: a fill copies inside the planes;
- `decodeFrames_built`: what a fill keeps of the stream;
- `stream_whole_iff`: when the stream is whole or not built.
-/

namespace Lhatove.Video

open Filesystem (FileContent)

open LoopM (Keeps)

open OggDemuxer (Found view maps_readPacket)
open LoopM OggDemuxer

/-! ## Packets of the pages ahead -/

namespace PageView

variable {Sync Stream Page Packet : Type} (L : LibOgg Sync Stream Page Packet)

/-- The next packet, or the end of the stream; none where the pages run out. -/
def fetch (v : PageView Stream Page Packet) : Option (PageView Stream Page Packet) :=
  match packetOf L v with
  | (some v, _) => some v
  | (none, v) => (packetFrom L false v.pages v).map Prod.snd

theorem readPacket_fetch (v : PageView Stream Page Packet) :
    match fetch L v with
    | none => (readPacket L false).result v = none
    | some v' => ∃ b, (readPacket L false).result v = some (.ok b, v') := by
  rw [readPacket_result, fetch]
  rcases packetOf L v with ⟨_ | w, u⟩
  · dsimp only
    rw [nextPacket_result]
    cases packetFrom L false u.pages u with
    | none => rfl
    | some r => exact ⟨r.1, rfl⟩
  · exact ⟨false, rfl⟩

end PageView

section Constructor

variable {Sync Stream Page Packet Headers Decoder Picture Time : Type}
variable {L : LibOgg Sync Stream Page Packet} {content : FileContent} {answers : Nat → Nat}
variable {held : Sync → List Byte} {nextPage : List Byte → Option (Page × List Byte)}
variable {T : LibTheora Packet Headers Decoder Picture Time} {clock : Clock Time}

theorem readPacket_view (h : OggContract L held nextPage)
    {d : OggDemuxer Sync Stream Page Packet} (hd : Found d) :
    match PageView.fetch L (view held nextPage content d) with
    | none => (OggDemuxer.readPacket L content answers false).result d = none
    | some v => ∃ b d', (OggDemuxer.readPacket L content answers false).result d =
        some (.ok b, d') ∧ Found d' ∧ view held nextPage content d' = v := by
  have hmap := @maps_readPacket _ _ _ _ L held nextPage content answers h false d hd
  have hfetch := PageView.readPacket_fetch L (view held nextPage content d)
  cases hv : PageView.fetch L (view held nextPage content d) with
  | none =>
    rw [hv] at hfetch
    rw [hmap.result] at hfetch
    exact Option.map_eq_none_iff.mp hfetch
  | some v =>
    rw [hv] at hfetch
    obtain ⟨b, hb⟩ := hfetch
    rw [hmap.result] at hb
    obtain ⟨⟨r, d'⟩, hr, hrd⟩ := Option.map_eq_some_iff.mp hb
    obtain ⟨rfl, hview⟩ : r = .ok b ∧ view held nextPage content d' = v := by
      simpa [Prod.map] using hrd
    exact ⟨b, d', hr, hmap.keeps _ _ hr, hview⟩

/-! ## What is relied on of libtheora -/

/-- Three headers are consumed one after the other: `count` of them have been. A bad or
repeated one is refused, a packet behind them is not a header, and there is no decoder
without a setup, which the last header makes. The picture lies in the frame, whose sizes
are below 2^20. -/
structure TheoraContract (T : LibTheora Packet Headers Decoder Picture Time)
    (count : Headers → Nat) : Prop where
  init : count T.headersInit = 0
  consumed : ∀ headers packet, 0 < (T.headerin headers packet).1 →
    count headers < 3 ∧ count (T.headerin headers packet).2 = count headers + 1
  refused : ∀ headers packet, (T.headerin headers packet).1 ≤ 0 →
    count (T.headerin headers packet).2 = count headers
  setup : ∀ headers, T.hasSetup headers → count headers = 3
  alloc : ∀ headers, (T.decodeAlloc headers).isSome → count headers = 3
  picture : ∀ headers, (T.decodeAlloc headers).isSome →
    (T.info headers).picX + (T.info headers).picWidth ≤ (T.info headers).frameWidth ∧
    (T.info headers).picY + (T.info headers).picHeight ≤ (T.info headers).frameHeight ∧
    (T.info headers).frameWidth < 2 ^ 20 ∧ (T.info headers).frameHeight < 2 ^ 20

variable (L T) in
/-- `k` more headers are consumed, from the pages ahead, and one more packet is tried (or
the end of the stream is noticed): what the headers are then. -/
def headersFrom : Nat → Headers → PageView Stream Page Packet → Option Headers
  | 0, headers, v => (v.fetch L).map fun v' => (T.headerin headers v'.packet).2
  | k + 1, headers, v =>
    match v.fetch L with
    | none => none
    | some v' =>
      if 0 < (T.headerin headers v'.packet).1 then
        headersFrom k (T.headerin headers v'.packet).2 v'
      else none

namespace TheoraVideoStream

/-- The stream of a demuxer. -/
abbrev Of (Sync Stream Page Packet Headers Decoder Picture Time : Type) :=
  TheoraVideoStream (OggDemuxer Sync Stream Page Packet) Headers Decoder Picture Time

theorem demux_result {α : Type} (x : Demux Sync Stream Page Packet α)
    (s : Of Sync Stream Page Packet Headers Decoder Picture Time) :
    (demux x).result s = (x.result s.demuxer).map fun r =>
      (r.1.mapError Thrown.love, { s with demuxer := r.2 }) :=
  result_map_of_run _ fun _ => rfl

theorem headerPacket_result (h : OggContract L held nextPage)
    {s : Of Sync Stream Page Packet Headers Decoder Picture Time} (hd : Found s.demuxer) :
    match PageView.fetch L (view held nextPage content s.demuxer) with
    | none => (headerPacket L content answers T).result s = none
    | some v => ∃ d, Found d ∧ view held nextPage content d = v ∧
        (headerPacket L content answers T).result s =
          some (.ok (T.headerin s.headers v.packet).1,
            { s with demuxer := d, headers := (T.headerin s.headers v.packet).2 }) := by
  have hread := @readPacket_view _ _ _ _ L content answers held nextPage h s.demuxer hd
  have hdemux := demux_result (OggDemuxer.readPacket L content answers false) s
  unfold headerPacket
  cases hv : PageView.fetch L (view held nextPage content s.demuxer) with
  | none =>
    rw [hv] at hread
    rw [hread] at hdemux
    exact result_bind_none hdemux
  | some v =>
    rw [hv] at hread
    obtain ⟨b, d, hr, hfound, hview⟩ := hread
    rw [hr] at hdemux
    refine ⟨d, hfound, hview, ?_⟩
    have hpacket : d.packet = v.packet := congrArg PageView.packet hview
    rw [result_bind_ok hdemux, result_bind_ok (result_get _)]
    rw [hpacket]
    exact (result_bind_ok (result_set _ _)).trans (result_pure _ _)

theorem headerLoop_last {ret : Int} (hret : ret ≤ 0)
    (s : Of Sync Stream Page Packet Headers Decoder Picture Time) :
    (LoopM.repeatM (headerTurn L content answers T) ret).result s = some (.ok (), s) := by
  have hpure : (headerTurn L content answers T ret).result s = some (.ok (.inr ()), s) := by
    unfold headerTurn
    rw [if_neg (not_lt.mpr hret)]
    exact result_pure _ s
  rw [repeatM_result, hpure]

theorem headerLoop_next (h : OggContract L held nextPage) {ret : Int} (hret : 0 < ret)
    {s : Of Sync Stream Page Packet Headers Decoder Picture Time} (hd : Found s.demuxer) :
    match PageView.fetch L (view held nextPage content s.demuxer) with
    | none => (LoopM.repeatM (headerTurn L content answers T) ret).result s = none
    | some v => ∃ d, Found d ∧ view held nextPage content d = v ∧
        (LoopM.repeatM (headerTurn L content answers T) ret).result s =
          (LoopM.repeatM (headerTurn L content answers T)
            (T.headerin s.headers v.packet).1).result
            { s with demuxer := d, headers := (T.headerin s.headers v.packet).2 } := by
  have hpacket := @headerPacket_result _ _ _ _ _ _ _ _ L content answers held nextPage T h s hd
  have hturn : (headerTurn L content answers T ret).result s =
      ((headerPacket L content answers T >>= fun ret => pure (.inl ret) :
        Theora Sync Stream Page Packet Headers Decoder Picture Time (Int ⊕ Unit))).result s := by
    unfold headerTurn
    rw [if_pos hret]
  cases hv : PageView.fetch L (view held nextPage content s.demuxer) with
  | none =>
    rw [hv] at hpacket
    rw [repeatM_result, hturn, result_bind_none hpacket]
  | some v =>
    rw [hv] at hpacket
    obtain ⟨d, hfound, hview, hr⟩ := hpacket
    refine ⟨d, hfound, hview, ?_⟩
    rw [repeatM_result, hturn, result_bind_ok hr, result_pure]

/-- The loop over the headers comes to its end behind the last header, or with headers
that are not whole, or it has no end. -/
theorem headerLoop_result (h : OggContract L held nextPage) {count : Headers → Nat}
    (hT : TheoraContract T count) (k : Nat) {ret : Int} (hret : 0 < ret)
    {s : Of Sync Stream Page Packet Headers Decoder Picture Time} (hd : Found s.demuxer)
    (hcount : count s.headers + k = 3) :
    match headersFrom L T k s.headers (view held nextPage content s.demuxer) with
    | some headers => ∃ d, (LoopM.repeatM (headerTurn L content answers T) ret).result s =
        some (.ok (), { s with demuxer := d, headers })
    | none => (LoopM.repeatM (headerTurn L content answers T) ret).result s = none ∨
        ∃ d headers, count headers < 3 ∧
          (LoopM.repeatM (headerTurn L content answers T) ret).result s =
            some (.ok (), { s with demuxer := d, headers }) := by
  induction k generalizing ret s with
  | zero =>
    have hnext := @headerLoop_next _ _ _ _ _ _ _ _ L content answers held nextPage T h ret hret s hd
    rw [headersFrom]
    cases hv : PageView.fetch L (view held nextPage content s.demuxer) with
    | none =>
      rw [hv] at hnext
      exact .inl hnext
    | some v =>
      rw [hv] at hnext
      obtain ⟨d, -, -, hr⟩ := hnext
      have hnot : (T.headerin s.headers v.packet).1 ≤ 0 := by
        by_contra hpos
        have := (hT.consumed s.headers v.packet (not_le.mp hpos)).1
        omega
      exact ⟨d, hr.trans (headerLoop_last hnot _)⟩
  | succ k ih =>
    have hnext := @headerLoop_next _ _ _ _ _ _ _ _ L content answers held nextPage T h ret hret s hd
    rw [headersFrom]
    cases hv : PageView.fetch L (view held nextPage content s.demuxer) with
    | none =>
      rw [hv] at hnext
      exact .inl hnext
    | some v =>
      rw [hv] at hnext
      obtain ⟨d, hfound, hview, hr⟩ := hnext
      dsimp only
      rw [hr]
      by_cases hpos : 0 < (T.headerin s.headers v.packet).1
      · rw [if_pos hpos, ← hview]
        have hcount' : count (T.headerin s.headers v.packet).2 + k = 3 := by
          rw [(hT.consumed s.headers v.packet hpos).2]
          omega
        exact ih (hview ▸ hpos) (s := { s with
          demuxer := d
          headers := (T.headerin s.headers (view held nextPage content d).packet).2 })
          hfound (hview ▸ hcount')
      · rw [if_neg hpos]
        refine .inr ⟨d, _, ?_, headerLoop_last (not_lt.mp hpos) _⟩
        rw [hT.refused s.headers v.packet (not_lt.mp hpos)]
        omega

/-! ## The decoder and the buffers -/

theorem intOf_of_lt {n : Int} (hn : 0 ≤ n) (hlt : n < 2 ^ 31) : intOf n = n := by
  exact Int.bmod_eq_of_le (by omega) (by omega)

/-- Sizes of a frame whose planes have as many bytes as pixels. -/
def frameOf (info : TheoraInfo) : Frame Picture :=
  let c := scaleFormat info.pixelFmt info.picWidth info.picHeight
  { yw := info.picWidth, yh := info.picHeight, cw := c.1, ch := c.2
    yplane := some (info.picWidth * info.picHeight)
    cbplane := some (c.1 * c.2)
    crplane := some (c.1 * c.2) }

theorem scaleFormat_le (fmt : PixelFmt) (w h : Nat) :
    0 ≤ (scaleFormat fmt w h).1 ∧ (scaleFormat fmt w h).1 ≤ w ∧
      0 ≤ (scaleFormat fmt w h).2 ∧ (scaleFormat fmt w h).2 ≤ h := by
  cases fmt <;> simp only [scaleFormat] <;> omega

theorem scaleFormat_mul_le (fmt : PixelFmt) (w h : Nat) :
    0 ≤ (scaleFormat fmt w h).1 * (scaleFormat fmt w h).2 ∧
      (scaleFormat fmt w h).1 * (scaleFormat fmt w h).2 ≤ (w * h : Int) := by
  obtain ⟨hw0, hw, hh0, hh⟩ := scaleFormat_le fmt w h
  exact ⟨Int.mul_nonneg hw0 hh0, Int.mul_le_mul hw hh hh0 (by omega)⟩

theorem newArray_of_lt {n : Int} (hn : 0 ≤ n) (hlt : n < 2 ^ 31) : newArray n = .ok n := by
  rw [newArray, intOf_of_lt hn hlt, if_neg (not_lt.mpr hn)]

theorem newArray_ok {n m : Int} (h : newArray n = .ok m) : m < 2 ^ 31 := by
  rw [newArray] at h
  split_ifs at h
  cases h
  have := @Int.bmod_lt n (2 ^ 32) (by norm_num)
  rw [intOf]
  omega

theorem makeFrame_small {info : TheoraInfo} (hw : info.picWidth < 2 ^ 31)
    (hh : info.picHeight < 2 ^ 31) (hsmall : info.picWidth * info.picHeight < 2 ^ 31) :
    @makeFrame Picture info = .ok (frameOf info) := by
  have hmul : (info.picWidth * info.picHeight : Int) < 2 ^ 31 := by exact_mod_cast hsmall
  obtain ⟨hc0, hc⟩ := scaleFormat_mul_le info.pixelFmt info.picWidth info.picHeight
  rw [makeFrame, intOf_of_lt (by omega) (by omega), intOf_of_lt (by omega) (by omega)]
  rw [newArray_of_lt (Int.mul_nonneg (by omega) (by omega)) hmul,
    newArray_of_lt hc0 (hc.trans_lt hmul)]
  rfl

/-- The buffers of any picture, if they are made. -/
theorem makeFrame_ok {info : TheoraInfo} {f : Frame Picture} (hw : info.picWidth < 2 ^ 31)
    (hh : info.picHeight < 2 ^ 31) (h : makeFrame info = .ok f) :
    f.yw = info.picWidth ∧ f.yh = info.picHeight ∧
      ∃ size, f.yplane = some size ∧ size < 2 ^ 31 := by
  rw [makeFrame, intOf_of_lt (by omega) (by omega), intOf_of_lt (by omega) (by omega)] at h
  cases hy : newArray (info.picWidth * info.picHeight : Int) with
  | error e =>
    rw [hy] at h
    cases h
  | ok size =>
    rw [hy] at h
    set c := scaleFormat info.pixelFmt info.picWidth info.picHeight
    cases hc : newArray (c.1 * c.2) with
    | error e =>
      rw [hc] at h
      cases h
    | ok csize =>
      rw [hc] at h
      cases h
      exact ⟨rfl, rfl, size, rfl, newArray_ok hy⟩

theorem makeFrame_blank {info : TheoraInfo} {f : Frame Picture} (h : makeFrame info = .ok f) :
    { f with picture := none } = f := by
  rw [makeFrame] at h
  generalize intOf info.picWidth = w at h
  generalize intOf info.picHeight = k at h
  cases hy : newArray (w * k) with
  | error e =>
    rw [hy] at h
    cases h
  | ok size =>
    rw [hy] at h
    cases hc : newArray
      ((scaleFormat info.pixelFmt w k).1 * (scaleFormat info.pixelFmt w k).2) with
    | error e =>
      rw [hc] at h
      cases h
    | ok csize =>
      rw [hc] at h
      cases h
      rfl

theorem makeDecoder_error {s : Of Sync Stream Page Packet Headers Decoder Picture Time}
    {e : Thrown} (hf : @makeFrame Picture (T.info s.headers) = .error e) :
    ∃ t, (makeDecoder T).result s = some (.error e, t) ∧ ∃ l, t.live = l ++ s.live := by
  refine ⟨{ s with
    decoder := T.decodeAlloc s.headers
    live := (if (T.decodeAlloc s.headers).isSome then [.decoder] else []) ++ s.live
    yPlaneXOffset := (T.info s.headers).picX
    yPlaneYOffset := (T.info s.headers).picY
    cPlaneXOffset := (scaleFormat (T.info s.headers).pixelFmt (T.info s.headers).picX
      (T.info s.headers).picY).1
    cPlaneYOffset := (scaleFormat (T.info s.headers).pixelFmt (T.info s.headers).picX
      (T.info s.headers).picY).2 }, ?_, _, rfl⟩
  unfold makeDecoder
  rw [result_bind_ok (result_get s), result_bind_ok (result_set _ _), hf]
  exact result_bind_error (result_throw e _)

theorem makeDecoder_ok {s : Of Sync Stream Page Packet Headers Decoder Picture Time}
    {f : Frame Picture} (hf : makeFrame (T.info s.headers) = .ok f) :
    (makeDecoder T).result s = some (.ok (), { s with
      headerParsed := true
      decoder := (T.decodePacketin (T.decodeAlloc s.headers) s.demuxer.packet).2
      frontBuffer := f
      backBuffer := f
      yPlaneXOffset := (T.info s.headers).picX
      yPlaneYOffset := (T.info s.headers).picY
      cPlaneXOffset := (scaleFormat (T.info s.headers).pixelFmt (T.info s.headers).picX
        (T.info s.headers).picY).1
      cPlaneYOffset := (scaleFormat (T.info s.headers).pixelFmt (T.info s.headers).picX
        (T.info s.headers).picY).2
      live := (if (T.decodeAlloc s.headers).isSome then [.decoder] else []) ++ s.live }) := by
  unfold makeDecoder
  rw [result_bind_ok (result_get s), result_bind_ok (result_set _ _), hf]
  show (pure f >>= _ : Theora Sync Stream Page Packet Headers Decoder Picture Time Unit).result
    _ = _
  show (pure f >>= _ : Theora Sync Stream Page Packet Headers Decoder Picture Time Unit).result
    _ = _
  exact result_modify _ _

/-! ## What the constructor leaves -/

variable (L T) in
/-- The first packet is refused as a header. -/
def Refused (v : PageView Stream Page Packet) : Prop :=
  ∃ v', v.fetch L = some v' ∧ (T.headerin T.headersInit v'.packet).1 < 0

variable (L T) in
/-- Three headers are consumed, with something behind them, and make a decoder. -/
def Consumed (v : PageView Stream Page Packet) (headers : Headers) : Prop :=
  ∃ v', v.fetch L = some v' ∧ 0 < (T.headerin T.headersInit v'.packet).1 ∧
    headersFrom L T 2 (T.headerin T.headersInit v'.packet).2 v' = some headers ∧
    (T.decodeAlloc headers).isSome

variable (L T) in
/-- The headers of the stream are there, or the first is refused: and the sizes of the
picture's planes are values of type `int`. -/
def HeadersWhole (v : PageView Stream Page Packet) : Prop :=
  Refused L T v ∨ ∃ headers, Consumed L T v headers ∧
    (T.info headers).picWidth * (T.info headers).picHeight < 2 ^ 31

/-- A built stream, as `makeDecoder` leaves it but for what is in its buffers. -/
structure BuiltOf (T : LibTheora Packet Headers Decoder Picture Time) (f : Frame Picture)
    (headers : Headers) (s : Of Sync Stream Page Packet Headers Decoder Picture Time) : Prop where
  frame : makeFrame (T.info headers) = .ok f
  kept : s.headers = headers
  decoder : s.decoder.isSome = (T.decodeAlloc headers).isSome
  front : { s.frontBuffer with picture := none } = f
  back : { s.backBuffer with picture := none } = f
  yX : s.yPlaneXOffset = (T.info headers).picX
  yY : s.yPlaneYOffset = (T.info headers).picY
  cX : s.cPlaneXOffset =
    (scaleFormat (T.info headers).pixelFmt (T.info headers).picX (T.info headers).picY).1
  cY : s.cPlaneYOffset =
    (scaleFormat (T.info headers).pixelFmt (T.info headers).picX (T.info headers).picY).2

/-- What `parseHeader` comes to: no end, the exception of a first packet that is refused,
another one, or a stream whose decoder is null or made of headers that were all there. -/
inductive Parsed (T : LibTheora Packet Headers Decoder Picture Time)
    (whole : Headers → Prop) (refused : Prop) :
    Option (Except Thrown Unit × Of Sync Stream Page Packet Headers Decoder Picture Time) → Prop
  | never (h : ¬ ∃ headers, whole headers) (h' : ¬ refused) : Parsed T whole refused none
  | refused {s message} (h : refused) (hlive : s.live = []) :
      Parsed T whole refused (some (.error (.love message), s))
  | length {s} (h : ¬ refused) (hlive : .videoInfo ∈ s.live)
      (hlarge : ∀ headers, whole headers → @makeFrame Picture (T.info headers) =
        .error .badArrayNewLength) :
      Parsed T whole refused (some (.error .badArrayNewLength, s))
  | broken {s} (h : ¬ ∃ headers, whole headers) (h' : ¬ refused) (hnull : s.decoder = none) :
      Parsed T whole refused (some (.ok (), s))
  | built {s headers f} (h : whole headers) (hbuilt : BuiltOf T f headers s) :
      Parsed T whole refused (some (.ok (), s))

theorem makeFrame_error {info : TheoraInfo} {e : Thrown}
    (h : @makeFrame Picture info = .error e) : e = .badArrayNewLength := by
  have harray : ∀ n, newArray n = .error e → e = .badArrayNewLength := by
    intro n hn
    rw [newArray] at hn
    split_ifs at hn
    cases hn
    rfl
  rw [makeFrame] at h
  set c := scaleFormat info.pixelFmt (intOf info.picWidth) (intOf info.picHeight)
  cases hy : newArray (intOf info.picWidth * intOf info.picHeight) with
  | error e' =>
    rw [hy] at h
    cases h
    exact harray _ hy
  | ok size =>
    rw [hy] at h
    cases hc : newArray (c.1 * c.2) with
    | error e' =>
      rw [hc] at h
      cases h
      exact harray _ hc
    | ok csize =>
      rw [hc] at h
      cases h

theorem decodePacketin_isSome (decoder : Option Decoder) (packet : Packet) :
    (T.decodePacketin decoder packet).2.isSome = decoder.isSome := by
  cases decoder <;> rfl

theorem catchLove_result (x : Theora Sync Stream Page Packet Headers Decoder Picture Time Unit)
    (s : Of Sync Stream Page Packet Headers Decoder Picture Time) :
    (catchLove x).result s = (x.result s).map fun r =>
      match r with
      | (.error (.love message), s) =>
        (.error (.love message), { s with
          live := s.live.filter fun r =>
            r ≠ .backBuffer ∧ r ≠ .frontBuffer ∧ r ≠ .videoInfo })
      | r => r :=
  result_map_of_run _ fun _ => rfl

theorem mem_release {r r' : Resource} (hne : r ≠ r') {live : List Resource} (h : r ∈ live) :
    r ∈ live.filter (· ≠ r') :=
  List.mem_filter.mpr ⟨h, decide_eq_true hne⟩

/-- Behind the loop over the headers: the buffers cannot be made, or the stream is built. -/
theorem tail_result (s : Of Sync Stream Page Packet Headers Decoder Picture Time)
    (hlive : .videoInfo ∈ s.live) :
    (∃ t, (noteSetup T >>= fun _ => release .comment >>= fun _ =>
        release .setupInfo >>= fun _ => makeDecoder T).result s =
          some (.error .badArrayNewLength, t) ∧ .videoInfo ∈ t.live ∧
        @makeFrame Picture (T.info s.headers) = .error .badArrayNewLength) ∨
    ∃ t f, (noteSetup T >>= fun _ => release .comment >>= fun _ =>
        release .setupInfo >>= fun _ => makeDecoder T).result s = some (.ok (), t) ∧
      BuiltOf T f s.headers t := by
  rw [noteSetup, result_bind_ok (result_modify _ _), release,
    result_bind_ok (result_modify _ _), release,
    result_bind_ok (result_modify _ _)]
  have hkept : .videoInfo ∈
      (((if T.hasSetup s.headers then [Resource.setupInfo] else []) ++ s.live).filter
        (· ≠ .comment)).filter (· ≠ .setupInfo) :=
    mem_release (by decide) (mem_release (by decide) (List.mem_append_right _ hlive))
  obtain ⟨u, hu⟩ : ∃ u : Of Sync Stream Page Packet Headers Decoder Picture Time, u = { s with
    live := (((if T.hasSetup s.headers then [Resource.setupInfo] else []) ++ s.live).filter
      (· ≠ Resource.comment)).filter (· ≠ Resource.setupInfo) } := ⟨_, rfl⟩
  rw [← hu]
  have hlive' : .videoInfo ∈ u.live := by
    rw [hu]
    exact hkept
  have hheaders : u.headers = s.headers := by rw [hu]
  rw [← hheaders]
  cases hf : @makeFrame Picture (T.info u.headers) with
  | error e =>
    obtain ⟨t, ht, l, hl⟩ := makeDecoder_error hf
    rw [makeFrame_error hf] at ht
    refine .inl ⟨t, ht, ?_, by rw [makeFrame_error hf]⟩
    rw [hl]
    exact List.mem_append_right _ hlive'
  | ok f =>
    exact Or.inr ⟨_, f, makeDecoder_ok hf, hf, rfl, decodePacketin_isSome _ _,
      makeFrame_blank hf, makeFrame_blank hf, rfl, rfl, rfl, rfl⟩

theorem tail_parsed {whole : Headers → Prop} {refused : Prop} (hrefused : ¬ refused)
    {s : Of Sync Stream Page Packet Headers Decoder Picture Time} (hlive : .videoInfo ∈ s.live)
    (hunique : ∀ headers, whole headers →
      headers = s.headers ∧ (T.decodeAlloc headers).isSome)
    (halloc : (T.decodeAlloc s.headers).isSome → whole s.headers) :
    Parsed T whole refused ((catchLove (noteSetup T >>= fun _ => release .comment >>= fun _ =>
        release .setupInfo >>= fun _ => makeDecoder T)).result s) := by
  rw [catchLove_result]
  rcases tail_result s hlive with ⟨t, ht, htlive, herror⟩ | ⟨t, f, ht, hbuilt⟩
  · rw [ht]
    refine .length hrefused htlive ?_
    intro headers hwhole
    rw [(hunique headers hwhole).1, herror]
  · rw [ht]
    by_cases hsome : (T.decodeAlloc s.headers).isSome = true
    · exact .built (halloc hsome) hbuilt
    · have hnull : t.decoder = none := by
        rw [← Option.not_isSome_iff_eq_none, hbuilt.decoder]
        exact hsome
      refine .broken ?_ hrefused hnull
      rintro ⟨headers, hwhole⟩
      obtain ⟨rfl, hthere⟩ := hunique headers hwhole
      exact hsome hthere

theorem loop_parsed (h : OggContract L held nextPage) {count : Headers → Nat}
    (hT : TheoraContract T count) {whole : Headers → Prop} {refused : Prop}
    (hrefused : ¬ refused) {ret : Int}
    {s : Of Sync Stream Page Packet Headers Decoder Picture Time} (hd : Found s.demuxer)
    (hlive : .videoInfo ∈ s.live) (hpos : 0 < ret → count s.headers = 1)
    (hzero : ret ≤ 0 → count s.headers = 0)
    (hwhole : ∀ headers, whole headers ↔ 0 < ret ∧
      headersFrom L T 2 s.headers (view held nextPage content s.demuxer) = some headers ∧
      (T.decodeAlloc headers).isSome) :
    Parsed T whole refused ((catchLove (LoopM.repeatM (headerTurn L content answers T) ret >>=
      fun _ => noteSetup T >>= fun _ => release .comment >>= fun _ =>
        release .setupInfo >>= fun _ => makeDecoder T)).result s) := by
  rw [catchLove_result]
  -- a decoder needs three headers
  have hnull : ∀ headers, count headers < 3 → ¬ (T.decodeAlloc headers).isSome := by
    intro headers hlt hsome
    have := hT.alloc headers hsome
    omega
  by_cases hret : 0 < ret
  · have hloop := @headerLoop_result _ _ _ _ _ _ _ _ L content answers held nextPage T h count hT 2
      ret hret s hd (by rw [hpos hret])
    cases hfrom : headersFrom L T 2 s.headers (view held nextPage content s.demuxer) with
    | some headers =>
      rw [hfrom] at hloop
      obtain ⟨d, hr⟩ := hloop
      rw [result_bind_ok hr, ← catchLove_result]
      refine tail_parsed hrefused hlive ?_ ?_
      · intro headers' hw
        obtain ⟨-, hsame, hsome⟩ := (hwhole headers').mp hw
        rw [hfrom] at hsame
        exact ⟨(Option.some.inj hsame).symm, hsome⟩
      · intro hsome
        exact (hwhole headers).mpr ⟨hret, hfrom, hsome⟩
    | none =>
      have hno : ∀ headers, ¬ whole headers := by
        intro headers hw
        obtain ⟨-, hsome, -⟩ := (hwhole headers).mp hw
        rw [hfrom] at hsome
        cases hsome
      rw [hfrom] at hloop
      rcases hloop with hnone | ⟨d, headers, hlt, hr⟩
      · rw [result_bind_none hnone]
        exact .never (fun ⟨headers, hw⟩ => hno headers hw) hrefused
      · rw [result_bind_ok hr, ← catchLove_result]
        refine tail_parsed hrefused hlive ?_ ?_
        · intro headers' hw
          exact absurd hw (hno headers')
        · intro hsome
          exact absurd hsome (hnull headers hlt)
  · rw [result_bind_ok (headerLoop_last (not_lt.mp hret) s), ← catchLove_result]
    refine tail_parsed hrefused hlive ?_ ?_
    · intro headers hw
      exact absurd ((hwhole headers).mp hw).1 hret
    · intro hsome
      refine absurd hsome (hnull _ ?_)
      omega

/-- **What `parseHeader` comes to**, in the constructor. -/
theorem parseHeader_parsed (h : OggContract L held nextPage) {count : Headers → Nat}
    (hT : TheoraContract T count)
    {s : Of Sync Stream Page Packet Headers Decoder Picture Time} (hd : Found s.demuxer)
    (hparsed : s.headerParsed = false) (hheaders : s.headers = T.headersInit)
    (hlive : s.live = [.backBuffer, .frontBuffer, .videoInfo]) :
    Parsed T (Consumed L T (view held nextPage content s.demuxer))
      (Refused L T (view held nextPage content s.demuxer))
      ((catchLove (parseHeader L content answers T)).result s) := by
  rw [catchLove_result]
  unfold parseHeader
  rw [result_bind_ok (result_get s), hparsed, if_neg Bool.false_ne_true,
    result_bind_ok (result_modify _ _)]
  obtain ⟨u, hu⟩ : ∃ u, u = { s with live := .comment :: s.live } := ⟨_, rfl⟩
  rw [← hu]
  have hdemuxer : u.demuxer = s.demuxer := by rw [hu]
  have huheaders : u.headers = T.headersInit := by rw [hu, ← hheaders]
  have hulive : u.live = [.comment, .backBuffer, .frontBuffer, .videoInfo] := by rw [hu, hlive]
  rw [← hdemuxer] at hd ⊢
  have hpacket := @headerPacket_result _ _ _ _ _ _ _ _ L content answers held nextPage T h u hd
  rw [huheaders] at hpacket
  cases hv : PageView.fetch L (view held nextPage content u.demuxer) with
  | none =>
    rw [hv] at hpacket
    rw [result_bind_none hpacket]
    refine .never ?_ ?_
    · rintro ⟨headers, v, hsome, -⟩
      rw [hv] at hsome
      cases hsome
    · rintro ⟨v, hsome, -⟩
      rw [hv] at hsome
      cases hsome
  | some v =>
    rw [hv] at hpacket
    obtain ⟨d, hfound, hview, hr⟩ := hpacket
    rw [result_bind_ok hr]
    obtain ⟨w, hw⟩ : ∃ w, w = { u with
      demuxer := d
      headers := (T.headerin T.headersInit v.packet).2 } := ⟨_, rfl⟩
    rw [← hw]
    have hwlive : w.live = [.comment, .backBuffer, .frontBuffer, .videoInfo] := by rw [hw, hulive]
    have hwheaders : w.headers = (T.headerin T.headersInit v.packet).2 := by rw [hw]
    by_cases hneg : (T.headerin T.headersInit v.packet).1 < 0
    · -- the first header is refused
      have hsetup : T.hasSetup w.headers = false := by
        by_contra hset
        have hthree := hT.setup _ (Bool.not_eq_false _ ▸ hset)
        rw [hwheaders, hT.refused _ _ (le_of_lt hneg), hT.init] at hthree
        omega
      rw [if_pos hneg, noteSetup, result_bind_ok (result_modify _ _), release,
        result_bind_ok (result_modify _ _), result_throw, hsetup, hwlive]
      exact .refused ⟨v, hv, hneg⟩ (by rfl)
    · rw [if_neg hneg, ← catchLove_result]
      have hrefused : ¬ Refused L T (view held nextPage content u.demuxer) := by
        rintro ⟨v', hv', hneg'⟩
        rw [hv] at hv'
        cases hv'
        exact hneg hneg'
      refine loop_parsed h hT hrefused (by rw [hw]; exact hfound) ?_ ?_ ?_ ?_
      · rw [hwlive]
        decide
      · intro hpos
        rw [hwheaders, (hT.consumed _ _ hpos).2, hT.init]
      · intro hle
        rw [hwheaders, hT.refused _ _ hle, hT.init]
      · intro headers
        have hwview : view held nextPage content w.demuxer = v := by rw [hw, hview]
        rw [hwview, hwheaders]
        constructor
        · rintro ⟨v', hv', hcons⟩
          rw [hv] at hv'
          cases hv'
          exact hcons
        · intro hcons
          exact ⟨v, hv, hcons⟩

/-! ## The copying -/

/-- Rows that lie in the plane of the picture, of a plane whose size is a value of type
`int`. -/
theorem planeRows_inside {info : TheoraInfo} {plane : Plane} {w h x y size : Int} (hw : 0 ≤ w)
    (hx : 0 ≤ x) (hxw : x + w ≤ (planeSize info plane).1) (hy : 0 ≤ y)
    (hyh : y + h ≤ (planeSize info plane).2) (hsize : w * h ≤ size) (hlt : w * h < 2 ^ 31)
    {c : RowCopy} (hc : c ∈ planeRows plane w h x y (some size)) : c.Inside info := by
  obtain ⟨i, hi, rfl⟩ := List.mem_map.mp hc
  rw [List.mem_range] at hi
  have hih : (i : Int) + 1 ≤ h := by omega
  have hend : w * i + w ≤ w * h := by
    calc w * i + w = w * (i + 1) := by ring
      _ ≤ w * h := Int.mul_le_mul_of_nonneg_left hih hw
  have hstart : 0 ≤ w * i := Int.mul_nonneg hw (by omega)
  have htarget : intOf (w * i) = w * i := intOf_of_lt hstart (by linarith)
  refine ⟨hw, hx, hxw, ?_, ?_, size, rfl, ?_, ?_⟩
  · show 0 ≤ (i : Int) + y
    omega
  · show (i : Int) + y < (planeSize info plane).2
    omega
  · show 0 ≤ intOf (w * i)
    rw [htarget]
    exact hstart
  · show intOf (w * i) + w ≤ size
    linarith

theorem planeSize_scale {info : TheoraInfo} (hw : info.picX + info.picWidth ≤ info.frameWidth)
    (hh : info.picY + info.picHeight ≤ info.frameHeight) {plane : Plane} (hplane : plane ≠ .y) :
    (scaleFormat info.pixelFmt info.picX info.picY).1 +
        (scaleFormat info.pixelFmt info.picWidth info.picHeight).1 ≤ (planeSize info plane).1 ∧
      (scaleFormat info.pixelFmt info.picX info.picY).2 +
        (scaleFormat info.pixelFmt info.picWidth info.picHeight).2 ≤ (planeSize info plane).2 := by
  rw [planeSize, if_neg hplane]
  cases info.pixelFmt <;> simp only [scaleFormat] <;> omega

theorem rowCopies_inside {info : TheoraInfo} {buffer : Frame Picture}
    {s : Of Sync Stream Page Packet Headers Decoder Picture Time}
    (hw : info.picX + info.picWidth ≤ info.frameWidth)
    (hh : info.picY + info.picHeight ≤ info.frameHeight)
    (hsmall : info.picWidth * info.picHeight < 2 ^ 31)
    (hbuffer : ({ buffer with picture := none } : Frame Picture) = frameOf info)
    (hyX : s.yPlaneXOffset = info.picX) (hyY : s.yPlaneYOffset = info.picY)
    (hcX : s.cPlaneXOffset = (scaleFormat info.pixelFmt info.picX info.picY).1)
    (hcY : s.cPlaneYOffset = (scaleFormat info.pixelFmt info.picX info.picY).2)
    {c : RowCopy} (hc : c ∈ s.rowCopies buffer) : c.Inside info := by
  have hcopies : s.rowCopies buffer = s.rowCopies (frameOf info) := by
    rw [← hbuffer]
    rfl
  have hmul : (info.picWidth * info.picHeight : Int) < 2 ^ 31 := by exact_mod_cast hsmall
  obtain ⟨hx0, -, hy0, -⟩ := scaleFormat_le info.pixelFmt info.picX info.picY
  obtain ⟨hcw0, -, -, -⟩ := scaleFormat_le info.pixelFmt info.picWidth info.picHeight
  obtain ⟨-, hcmul⟩ := scaleFormat_mul_le info.pixelFmt info.picWidth info.picHeight
  rw [hcopies, rowCopies, hyX, hyY, hcX, hcY, List.mem_append, List.mem_append] at hc
  rcases hc with hc | hc | hc
  · refine planeRows_inside (by omega) (by omega) ?_ (by omega) ?_ le_rfl hmul hc
    · exact_mod_cast hw
    · exact_mod_cast hh
  · obtain ⟨hxw, hyh⟩ := planeSize_scale hw hh (show Plane.cb ≠ .y by decide)
    exact planeRows_inside hcw0 hx0 hxw hy0 hyh le_rfl (hcmul.trans_lt hmul) hc
  · obtain ⟨hxw, hyh⟩ := planeSize_scale hw hh (show Plane.cr ≠ .y by decide)
    exact planeRows_inside hcw0 hx0 hxw hy0 hyh le_rfl (hcmul.trans_lt hmul) hc

theorem rowCopies_outside {info : TheoraInfo} {buffer : Frame Picture} {size : Int}
    {s : Of Sync Stream Page Packet Headers Decoder Picture Time}
    (hyw : buffer.yw = info.picWidth) (hyh : buffer.yh = info.picHeight)
    (hsize : buffer.yplane = some size) (hlt : size < 2 ^ 31)
    (hlarge : 2 ^ 31 ≤ info.picWidth * info.picHeight) :
    ∃ c ∈ s.rowCopies buffer, ¬ c.Inside info := by
  have hpos : 0 < info.picWidth := by
    rcases Nat.eq_zero_or_pos info.picWidth with hzero | hpos
    · rw [hzero, Nat.zero_mul] at hlarge
      omega
    · exact hpos
  -- the row in which the size of the plane goes beyond an `int`
  obtain ⟨y, hy⟩ : ∃ y, y = (2 ^ 31 - 1) / info.picWidth := ⟨_, rfl⟩
  have hstart : info.picWidth * y ≤ 2 ^ 31 - 1 := by
    rw [hy]
    exact Nat.mul_div_le _ _
  have hend : 2 ^ 31 - 1 < info.picWidth * y + info.picWidth := by
    rw [hy]
    exact Nat.lt_mul_div_succ (2 ^ 31 - 1) hpos
  have hrow : y < info.picHeight := by
    by_contra hge
    have := Nat.mul_le_mul_left info.picWidth (not_lt.mp hge)
    omega
  refine ⟨⟨.y, y + s.yPlaneYOffset, s.yPlaneXOffset, buffer.yw, intOf (buffer.yw * y),
    buffer.yplane⟩, ?_, ?_⟩
  · refine List.mem_append_left _ (List.mem_map.mpr ⟨y, ?_, rfl⟩)
    rw [List.mem_range, hyh, Int.toNat_natCast]
    exact hrow
  · rintro ⟨-, -, -, -, -, size', hsize', -, hle⟩
    dsimp only at hsize' hle
    rw [hsize] at hsize'
    cases hsize'
    have hcast : (info.picWidth : Int) * y = ((info.picWidth * y : Nat) : Int) := by push_cast; rfl
    rw [hyw, hcast, intOf_of_lt (by omega) (by omega)] at hle
    omega

/-! ## Later fills and swaps -/

theorem keeps_demux {P : Of Sync Stream Page Packet Headers Decoder Picture Time → Prop}
    {α : Type} (x : Demux Sync Stream Page Packet α)
    (hP : ∀ s d, P s → P { s with demuxer := d }) : Keeps P (demux x) := by
  intro s hs r t hr
  rw [demux_result] at hr
  obtain ⟨r', -, hr'⟩ := Option.map_eq_some_iff.mp hr
  cases hr'
  exact hP s _ hs

variable {f : Frame Picture} {headers : Headers}

/-- A built stream stays one whatever its demuxer, its times and the state of its decoder. -/
theorem BuiltOf.change {s : Of Sync Stream Page Packet Headers Decoder Picture Time}
    (h : BuiltOf T f headers s) (d : OggDemuxer Sync Stream Page Packet)
    {decoder : Option Decoder} (hdecoder : decoder.isSome = s.decoder.isSome)
    (lastFrame nextFrame : Time) :
    BuiltOf T f headers { s with demuxer := d, decoder, lastFrame, nextFrame } where
  frame := h.frame
  kept := h.kept
  decoder := hdecoder.trans h.decoder
  front := h.front
  back := h.back
  yX := h.yX
  yY := h.yY
  cX := h.cX
  cY := h.cY

theorem decodeCtl_isSome (decoder : Option Decoder) (granulepos : Int) :
    (T.decodeCtl decoder granulepos).isSome = decoder.isSome := by
  cases decoder <;> rfl

theorem keeps_seekDecoder (target : Time) :
    Keeps (BuiltOf T f headers) (seekDecoder L content answers T clock target :
      Theora Sync Stream Page Packet Headers Decoder Picture Time Unit) := by
  refine .bind .get fun u => .bind (keeps_demux _ fun s d hs => ?_) fun success => ?_
  · exact hs.change d rfl s.lastFrame s.nextFrame
  · cases success with
    | false => exact .pure ()
    | true =>
      refine .modify fun s hs => ?_
      exact hs.change s.demuxer (decodeCtl_isSome _ _) clock.minusOne clock.minusOne

theorem keeps_packetTurn :
    Keeps (BuiltOf T f headers) (packetTurn L content answers T :
      Theora Sync Stream Page Packet Headers Decoder Picture Time (Unit ⊕ Option Int)) := by
  refine .bind (keeps_demux _ fun s d hs => ?_) fun eos => ?_
  · exact hs.change d rfl s.lastFrame s.nextFrame
  · cases eos with
    | true => exact .pure _
    | false =>
      refine .bind (.modify fun s hs => ?_) fun _ => .get_bind fun s hs r t hr => ?_
      · split
        · exact hs.change s.demuxer (decodeCtl_isSome _ _) s.lastFrame s.nextFrame
        · exact hs
      · have hset : BuiltOf T f headers { s with
            decoder := (T.decodePacketin s.decoder s.demuxer.packet).2 } :=
          hs.change s.demuxer (decodePacketin_isSome _ _) s.lastFrame s.nextFrame
        rw [result_bind_ok (result_set _ _)] at hr
        split at hr
        · rw [result_pure] at hr
          cases hr
          exact hset
        · rw [result_pure] at hr
          cases hr
          exact hset

theorem keeps_catchUp (position : Time) (b : Behind Picture) :
    Keeps (BuiltOf T f headers) (catchUp L content answers T clock position b :
      Theora Sync Stream Page Packet Headers Decoder Picture Time (Behind Picture)) := by
  unfold catchUp
  split
  · exact .bind (keeps_seekDecoder position) fun _ => .pure _
  · exact .pure _

/-- A turn of the loop keeps the stream, and goes on with a picture that is filled. -/
theorem frameTurn_leads (position : Time) (b : Behind Picture)
    {s : Of Sync Stream Page Packet Headers Decoder Picture Time}
    (hs : BuiltOf T f headers s) (hdecoder : (T.decodeAlloc headers).isSome)
    (hb : ∀ p, b.bufferinfo = some p → p.isSome)
    {r : Except Thrown (Behind Picture ⊕ Fill Picture)}
    {t : Of Sync Stream Page Packet Headers Decoder Picture Time}
    (hr : (frameTurn L content answers T clock position b).result s = some (r, t)) :
    LoopM.Leads
      (fun (b : Behind Picture) t => BuiltOf T f headers t ∧ ∀ p, b.bufferinfo = some p → p.isSome)
      (fun r t => BuiltOf T f headers t ∧ ∀ p, r = .ok (.done (some p)) → p.isSome) r t := by
  unfold frameTurn at hr
  rw [result_bind_ok (result_get s)] at hr
  split at hr
  · obtain ⟨e, hc, rfl⟩ | ⟨b', u, hc, hr⟩ := result_bind_some hr
    · exact ⟨keeps_catchUp position b s hs _ _ hc, fun p hp => by cases hp⟩
    · have hu := keeps_catchUp position b s hs _ _ hc
      rw [result_bind_ok (result_get u)] at hr
      obtain ⟨e, hp, rfl⟩ | ⟨o, w, hp, hr⟩ := result_bind_some hr
      · exact ⟨Keeps.repeatM (fun _ => keeps_packetTurn) () u hu _ _ hp,
          fun p hp => by cases hp⟩
      · have hw := Keeps.repeatM (fun _ => keeps_packetTurn) () u hu _ _ hp
        cases o with
        | none =>
          rw [result_pure] at hr
          cases hr
          exact ⟨hw, fun p hp => by cases hp⟩
        | some decoderPosition =>
          rw [result_bind_ok (result_modify _ _), result_pure] at hr
          cases hr
          refine ⟨hw.change w.demuxer rfl _ _, ?_⟩
          rintro p hp
          cases hp
          rw [LibTheora.decodeYcbcrOut, Option.isSome_map, hu.decoder]
          exact hdecoder
  · rw [result_pure] at hr
    cases hr
    refine ⟨hs, ?_⟩
    intro p hp
    cases hfill : b.bufferinfo with
    | none =>
      rw [hfill] at hp
      cases hp
    | some q =>
      rw [hfill] at hp
      cases hp
      exact hb _ hfill

/-- **A fill** keeps the stream, and copies a picture that is filled. -/
theorem decodeFrames_built (position : Time)
    {s : Of Sync Stream Page Packet Headers Decoder Picture Time}
    (hs : BuiltOf T f headers s) (hdecoder : (T.decodeAlloc headers).isSome)
    {r : Except Thrown (Fill Picture)}
    {t : Of Sync Stream Page Packet Headers Decoder Picture Time}
    (hr : (decodeFrames L content answers T clock position).result s = some (r, t)) :
    BuiltOf T f headers t ∧ ∀ p, r = .ok (.done (some p)) → p.isSome := by
  have hloop : ∀ u, BuiltOf T f headers u →
      (LoopM.repeatM (frameTurn L content answers T clock position) {}).result u = some (r, t) →
      BuiltOf T f headers t ∧ ∀ p, r = .ok (.done (some p)) → p.isSome := by
    intro u hu hr
    refine repeatM_post (fun b v hv r t hr => frameTurn_leads position b hv.1 hdecoder hv.2 hr) ⟨hu, ?_⟩ hr
    intro p hp
    cases hp
  unfold decodeFrames at hr
  rw [result_bind_ok (result_get s)] at hr
  split at hr
  · obtain ⟨e, hseek, rfl⟩ | ⟨a, u, hseek, hr⟩ := result_bind_some hr
    · exact ⟨keeps_seekDecoder position s hs _ _ hseek, fun p hp => by cases hp⟩
    · exact hloop u (keeps_seekDecoder position s hs _ _ hseek) hr
  · exact hloop s hs hr

/-- What may become of a built stream: the worker fills the back buffer, and the buffers are
exchanged. -/
inductive Later (L : LibOgg Sync Stream Page Packet) (content : FileContent)
    (answers : Nat → Nat) (T : LibTheora Packet Headers Decoder Picture Time)
    (clock : Clock Time) :
    Of Sync Stream Page Packet Headers Decoder Picture Time →
      Of Sync Stream Page Packet Headers Decoder Picture Time → Prop
  | returned {s t position}
      (h : (decodeFrames L content answers T clock position).result s = some (.ok .returned, t)) :
      Later L content answers T clock s t
  | unchanged {s t position}
      (h : (decodeFrames L content answers T clock position).result s =
        some (.ok (.done none), t)) :
      Later L content answers T clock s t
  | filled {s t position picture}
      (h : (decodeFrames L content answers T clock position).result s =
        some (.ok (.done (some picture)), t)) :
      Later L content answers T clock s (t.copied picture)
  | swap {s} (playing : Bool) : Later L content answers T clock s (swapBuffers playing s).2

variable (L content answers T clock) in
/-- A stream with a decoder that copies what has been filled, inside the planes. -/
def Sound (s : Of Sync Stream Page Packet Headers Decoder Picture Time) : Prop :=
  s.decoder.isSome ∧
    (∀ c ∈ s.rowCopies s.backBuffer, c.Inside (T.info s.headers)) ∧
    ∀ position picture t, (decodeFrames L content answers T clock position).result s =
      some (.ok (.done (some picture)), t) → picture.isSome

variable (L content answers T clock) in
/-- The constructor ends, and it throws with all released, or it leaves a stream that is
sound, and stays it. -/
def WholeOrNotBuilt :
    Option (Except Thrown Unit × Of Sync Stream Page Packet Headers Decoder Picture Time) → Prop
  | none => False
  | some (.error _, s) => s.live = []
  | some (.ok _, s) =>
    ∀ t, Relation.ReflTransGen (Later L content answers T clock) s t →
      Sound L content answers T clock t

theorem BuiltOf.copied {s : Of Sync Stream Page Packet Headers Decoder Picture Time}
    (h : BuiltOf T f headers s) (picture : Option Picture) :
    BuiltOf T f headers (s.copied picture) :=
  ⟨h.frame, h.kept, h.decoder, h.front, h.back, h.yX, h.yY, h.cX, h.cY⟩

theorem BuiltOf.swapBuffers {s : Of Sync Stream Page Packet Headers Decoder Picture Time}
    (h : BuiltOf T f headers s) (playing : Bool) :
    BuiltOf T f headers (swapBuffers playing s).2 := by
  unfold TheoraVideoStream.swapBuffers
  split_ifs
  · exact h
  · exact h
  · exact h
  · exact ⟨h.frame, h.kept, h.decoder, h.back, h.front, h.yX, h.yY, h.cX, h.cY⟩

theorem BuiltOf.later {s t : Of Sync Stream Page Packet Headers Decoder Picture Time}
    (h : BuiltOf T f headers s) (hdecoder : (T.decodeAlloc headers).isSome)
    (hlater : Later L content answers T clock s t) : BuiltOf T f headers t := by
  cases hlater with
  | returned hr | unchanged hr => exact (decodeFrames_built _ h hdecoder hr).1
  | filled hr => exact ((decodeFrames_built _ h hdecoder hr).1).copied _
  | swap playing => exact h.swapBuffers playing

/-- A built stream is sound, if its picture is small. -/
theorem BuiltOf.sound {count : Headers → Nat} (hT : TheoraContract T count)
    {s : Of Sync Stream Page Packet Headers Decoder Picture Time}
    (h : BuiltOf T f headers s) (hdecoder : (T.decodeAlloc headers).isSome)
    (hsmall : (T.info headers).picWidth * (T.info headers).picHeight < 2 ^ 31) :
    Sound L content answers T clock s := by
  obtain ⟨hw, hh, hfw, hfh⟩ := hT.picture headers hdecoder
  have hframe : f = frameOf (T.info headers) := by
    have hmake := @makeFrame_small Picture (T.info headers) (by omega) (by omega) hsmall
    rw [h.frame] at hmake
    exact Except.ok.inj hmake
  refine ⟨by rw [h.decoder]; exact hdecoder, ?_, ?_⟩
  · intro c hc
    rw [h.kept]
    exact rowCopies_inside hw hh hsmall (h.back.trans hframe) h.yX h.yY h.cX h.cY hc
  · intro position picture t hr
    exact (decodeFrames_built position h hdecoder hr).2 picture rfl

/-- **The rest of the constructor** leaves a stream that is whole or not built exactly when
the headers are there. -/
theorem Parsed.wholeOrNotBuilt_iff {count : Headers → Nat} (hT : TheoraContract T count)
    {v : PageView Stream Page Packet}
    {r : Option (Except Thrown Unit × Of Sync Stream Page Packet Headers Decoder Picture Time)}
    (h : Parsed T (Consumed L T v) (Refused L T v) r) :
    WholeOrNotBuilt L content answers T clock r ↔ HeadersWhole L T v := by
  cases h with
  | never hwhole hrefused =>
    refine iff_of_false id ?_
    rintro (href | ⟨headers, hcons, -⟩)
    · exact hrefused href
    · exact hwhole ⟨headers, hcons⟩
  | refused href hlive => exact iff_of_true hlive (.inl href)
  | @length s hrefused hlive hlarge =>
    refine iff_of_false ?_ ?_
    · intro hnone
      have hnil : s.live = [] := hnone
      rw [hnil] at hlive
      cases hlive
    · rintro (href | ⟨headers, hcons, hsmall⟩)
      · exact hrefused href
      · obtain ⟨-, -, -, -, hsome⟩ := id hcons
        obtain ⟨hw, hh, hfw, hfh⟩ := hT.picture headers hsome
        have hmake := @makeFrame_small Picture (T.info headers) (by omega) (by omega) hsmall
        rw [hlarge headers hcons] at hmake
        cases hmake
  | @broken s hwhole hrefused hnull =>
    refine iff_of_false ?_ ?_
    · intro hsound
      have hsome := (hsound s .refl).1
      rw [hnull] at hsome
      cases hsome
    · rintro (href | ⟨headers, hcons, -⟩)
      · exact hrefused href
      · exact hwhole ⟨headers, hcons⟩
  | @built s headers f hcons hbuilt =>
    obtain ⟨-, -, -, -, hsome⟩ := id hcons
    constructor
    · intro hsound
      right
      refine ⟨headers, hcons, ?_⟩
      by_contra hlarge
      obtain ⟨hw, hh, hfw, hfh⟩ := hT.picture headers hsome
      obtain ⟨hyw, hyh, size, hsize, hlt⟩ :=
        makeFrame_ok (by omega) (by omega) hbuilt.frame
      rw [← hbuilt.back] at hyw hyh hsize
      obtain ⟨c, hc, houtside⟩ :=
        rowCopies_outside hyw hyh hsize hlt (not_lt.mp hlarge)
      have hinside := (hsound s .refl).2.1 c hc
      rw [hbuilt.kept] at hinside
      exact houtside hinside
    · rintro hthere
      have hsmall : (T.info headers).picWidth * (T.info headers).picHeight < 2 ^ 31 := by
        rcases hthere with ⟨v', hv', hneg⟩ | ⟨headers', hcons', hsmall⟩
        · obtain ⟨v'', hv'', hpos, -⟩ := hcons
          rw [hv'] at hv''
          cases hv''
          omega
        · obtain ⟨v₁, hv₁, -, hfrom₁, -⟩ := hcons
          obtain ⟨v₂, hv₂, -, hfrom₂, -⟩ := hcons'
          rw [hv₁] at hv₂
          cases hv₂
          rw [hfrom₁] at hfrom₂
          cases hfrom₂
          exact hsmall
      intro t ht
      have hlater : BuiltOf T f headers t := by
        induction ht with
        | refl => exact hbuilt
        | tail _ hstep ih => exact ih.later hsome hstep
      exact hlater.sound hT hsome hsmall

theorem determineType_inited {d d' : OggDemuxer Sync Stream Page Packet}
    {r : Except String StreamType} (hr : (determineType L).result d = some (r, d')) :
    d'.streamInited = d.streamInited := by
  unfold determineType at hr
  rw [result_bind_ok (result_get d)] at hr
  rcases hpeek : L.packetpeek d.stream with ⟨_ | packet, stream⟩
  · rw [hpeek] at hr
    rw [result_bind_ok (result_set d _), result_pure] at hr
    cases hr
    rfl
  · rw [hpeek] at hr
    rw [result_bind_ok (result_set d _)] at hr
    by_cases hdata : 7 ≤ (L.data packet).length ∧ (L.data packet).getD 0 0 &&& 0x80 ≠ 0 ∧
        ((L.data packet).drop 1).take 6 = [0x74, 0x68, 0x65, 0x6F, 0x72, 0x61]
    · rw [if_pos hdata, result_pure] at hr
      cases hr
      rfl
    · rw [if_neg hdata, result_pure] at hr
      cases hr
      rfl

theorem findStream_found {d d' : OggDemuxer Sync Stream Page Packet}
    (hr : (findStream L content answers).result d = some (.ok .theora, d')) :
    Found d' := by
  unfold findStream at hr
  refine repeatM_post (P := fun _ _ => True) (Q := fun r t => r = .ok .theora → Found t)
    ?_ trivial hr rfl
  rintro - e - r t ht
  unfold findStreamTurn at ht
  obtain ⟨error, -, rfl⟩ | ⟨_ | _, u, -, ht⟩ := result_bind_some ht
  · intro h
    cases h
  · rw [if_neg Bool.false_ne_true, result_pure] at ht
    cases ht
    intro h
    cases h
  · rw [if_pos rfl, result_bind_ok (result_get u)] at ht
    split at ht
    · rw [result_bind_ok (result_set u _), result_pure] at ht
      cases ht
      intro h
      cases h
    · rw [result_bind_ok (result_set u _)] at ht
      obtain ⟨w, hw⟩ : ∃ w, w = { u with
        videoSerial := L.serialno u.page
        stream := L.pagein (L.streamInit u.stream (L.serialno u.page)) u.page
        streamInited := true } := ⟨_, rfl⟩
      rw [← hw] at ht
      obtain ⟨error, -, rfl⟩ | ⟨_ | _, x, htype, ht⟩ := result_bind_some ht
      · intro h
        cases h
      · rw [result_pure] at ht
        cases ht
        intro _
        rw [OggDemuxer.Found, determineType_inited htype, hw]
      · rw [result_bind_ok (result_modify _ x), result_pure] at ht
        cases ht
        trivial

/-- **When a stream is whole or not built.** The constructor ends, and throws with all
released or leaves a stream that is sound for ever, exactly when no Theora stream is found, or
the headers of the one that is found are there. -/
theorem stream_whole_iff (h : OggContract L held nextPage) {count : Headers → Nat}
    (hT : TheoraContract T count) (d : OggDemuxer Sync Stream Page Packet) :
    WholeOrNotBuilt L content answers T clock
        ((construct L content answers T).result (unbuilt T clock d)) ↔
      ∀ d', (findStream L content answers).result d = some (.ok .theora, d') →
        HeadersWhole L T (view held nextPage content d') := by
  have hends := @findStream_ends _ _ _ _ L held nextPage content answers h d
  obtain ⟨⟨r, d'⟩, hr⟩ := ends_iff.mp hends
  have hdemux := demux_result (findStream L content answers)
    (unbuilt T clock d : Of Sync Stream Page Packet Headers Decoder Picture Time)
  rw [show (unbuilt T clock d : Of Sync Stream Page Packet Headers Decoder Picture
    Time).demuxer = d from rfl, hr] at hdemux
  unfold construct
  rcases r with message | type
  · -- the demuxer throws, and nothing has been allocated
    rw [result_bind_error hdemux]
    refine iff_of_true rfl ?_
    intro e he
    rw [hr] at he
    cases he
  · rw [result_bind_ok hdemux]
    cases type with
    | unknown =>
      rw [if_pos (by decide), result_throw]
      refine iff_of_true rfl ?_
      intro e he
      rw [hr] at he
      cases he
    | theora =>
      have hparsed := @parseHeader_parsed _ _ _ _ _ _ _ _ L content answers held nextPage T h
        count hT { (unbuilt T clock d : Of Sync Stream Page Packet Headers Decoder Picture Time)
          with demuxer := d', live := [.backBuffer, .frontBuffer, .videoInfo] }
        (findStream_found hr) rfl rfl rfl
      refine (hparsed.wholeOrNotBuilt_iff hT).trans ?_
      constructor
      · intro hwhole e he
        rw [hr] at he
        cases he
        exact hwhole
      · intro hall
        exact hall d' hr

end TheoraVideoStream

end Constructor

/-! ## A stream that ends with its first header -/

/-- The first page of a video, which is its last one: the identification header of a video of
16 by 16 pixels. -/
def solePage : List Byte :=
  [0x4F, 0x67, 0x67, 0x53, 0x00, 0x06, 0x00, 0x00, 0x00, 0x00, 0x00, 0x00, 0x00, 0x00, 0x01, 0x00,
   0x00, 0x00, 0x00, 0x00, 0x00, 0x00, 0x40, 0xCD, 0xDF, 0xF5, 0x01, 0x2A, 0x80, 0x74, 0x68, 0x65,
   0x6F, 0x72, 0x61, 0x03, 0x02, 0x01, 0x00, 0x01, 0x00, 0x01, 0x00, 0x00, 0x10, 0x00, 0x00, 0x10,
   0x00, 0x00, 0x00, 0x00, 0x00, 0x1E, 0x00, 0x00, 0x00, 0x01, 0x00, 0x00, 0x01, 0x00, 0x00, 0x01,
   0x00, 0x00, 0x00, 0x00, 0xC0, 0xC0]

/-- libogg on files of which that is the only page. -/
def soleOgg : LibOgg (List Byte) (Option Nat) Unit Unit :=
  { oneOgg with
    pageout := fun sync =>
      if solePage <+: sync then (.page (), sync.drop 70) else (.needMore, sync)
    eos := fun _ => true
    data := fun _ => solePage.drop 28 }

def soleNext (bytes : List Byte) : Option (Unit × List Byte) :=
  if solePage <+: bytes then some ((), bytes.drop 70) else none

theorem soleOgg_contract : OggContract soleOgg id soleNext :=
  pageOgg_contract (by decide) (fun _ => rfl) (fun _ _ => rfl) (fun _ => rfl) (fun _ _ => rfl)
    fun _ => rfl

def soleFile : FileContent := ⟨solePage, by decide⟩

/-- libtheora on that packet: it is the first header, and `TH_EBADHEADER` when it comes
again. -/
def soleTheora : LibTheora Unit Nat Unit Unit Unit where
  headersInit := 0
  headerin count _ := if count = 0 then (1, 1) else (-20, count)
  hasSetup count := count == 3
  info _ := ⟨16, 16, 16, 16, 0, 0, .pf420⟩
  decodeAlloc count := if count = 3 then some () else none
  packetin _ _ := ((0, 0), ())
  setGranpos _ _ := ()
  ycbcrOut _ := ()
  granuleTime _ _ := ()

theorem soleTheora_contract : TheoraContract soleTheora id where
  init := rfl
  consumed count packet h := by
    simp only [soleTheora] at h ⊢
    split_ifs at h ⊢ with hzero
    · exact ⟨by rw [hzero]; decide, by rw [hzero]; rfl⟩
    · omega
  refused count packet h := by
    simp only [soleTheora] at h ⊢
    split_ifs at h ⊢
    · omega
    · rfl
  setup count h := by simpa [soleTheora] using h
  alloc count h := by
    simp only [soleTheora] at h
    split_ifs at h with hthree
    · exact hthree
    · cases h
  picture _ _ := by simp [soleTheora]

def soleClock : Clock Unit := { noTimes with zero := (), minusOne := () }

open TheoraVideoStream

theorem stream_whole_iff_sole :
    WholeOrNotBuilt soleOgg soleFile (fun _ => 8192) soleTheora soleClock
        ((construct soleOgg soleFile (fun _ => 8192) soleTheora).result
          (unbuilt soleTheora soleClock fresh)) ↔
      ∀ d', (findStream soleOgg soleFile (fun _ => 8192)).result fresh =
          some (.ok .theora, d') →
        HeadersWhole soleOgg soleTheora (view id soleNext soleFile d') :=
  stream_whole_iff soleOgg_contract soleTheora_contract fresh

/-- The stream that is built of it: what is left of the headers makes no decoder. -/
def soleBuilt :
    TheoraVideoStream (OggDemuxer (List Byte) (Option Nat) Unit Unit) Nat Unit Unit Unit :=
  { unbuilt soleTheora soleClock ⟨70, 1, [], some 0, (), true, 1, true, ()⟩ with
    headerParsed := true
    headers := 1
    frontBuffer := frameOf (soleTheora.info 1)
    backBuffer := frameOf (soleTheora.info 1)
    live := [.backBuffer, .frontBuffer, .videoInfo] }

theorem sole_construct :
    (construct soleOgg soleFile (fun _ => 8192) soleTheora).result
      (unbuilt soleTheora soleClock fresh) = some (.ok (), soleBuilt) :=
  result_of_run (n := 3) (by decide +kernel)

/-- A file that ends with the first header gives a stream without a decoder. -/
theorem not_whole_sole :
    ¬ WholeOrNotBuilt soleOgg soleFile (fun _ => 8192) soleTheora soleClock
        ((construct soleOgg soleFile (fun _ => 8192) soleTheora).result
          (unbuilt soleTheora soleClock fresh)) := by
  rw [sole_construct]
  intro h
  exact absurd (h soleBuilt .refl).1 (by decide)

end Lhatove.Video
