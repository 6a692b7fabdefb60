import Lhatove.Video.FrameDecoding
import Lhatove.Lib.Transition

/-!
# The frame of its time

The worker fills the back buffer of a stream while the main thread exchanges the buffers.

- `Playback`: the stream, and where the worker is;
- `Step`: what either of them does, in any order;
- `shown_iff`: a buffer that is written is not exchanged; a fill shows the frame before the one
  that is due, and so the right one exactly if that is the same picture.
-/

namespace Lhatove.Video

open Filesystem (FileContent)

open LoopM (Keeps)

open TheoraVideoStream

/-- Where the worker is in a fill: it has a picture, or it copies it, without the lock. -/
inductive Phase (Picture Time : Type)
  | idle
  | decoded (position : Time) (picture : Option Picture)
  | writing (position : Time) (picture : Option Picture)

/-- The stream, and the position of the last fill that was completed. -/
structure Playback (Sync Stream Page Packet Headers Decoder Picture Time : Type) where
  stream : Of Sync Stream Page Packet Headers Decoder Picture Time
  phase : Phase Picture Time
  filledAt : Option Time

/-- What is done: a fill up to the first lock, the two locks of `threadedFillBackBuffer`, and
`swapBuffers`, which sees the demuxer while the worker may be at work on it. -/
inductive Event (Demuxer Time : Type)
  | fill (position : Time)
  | disable
  | enable
  | swap (seen : Demuxer) (playing : Bool)

section Playback

variable {Sync Stream Page Packet Headers Decoder Picture Time : Type}

/-- The stream as the main thread sees it. -/
def seeing (s : Of Sync Stream Page Packet Headers Decoder Picture Time)
    (seen : OggDemuxer Sync Stream Page Packet) :
    Of Sync Stream Page Packet Headers Decoder Picture Time :=
  { s with demuxer := seen }

/-- The stream behind `swapBuffers`. -/
def swapped (s : Of Sync Stream Page Packet Headers Decoder Picture Time)
    (seen : OggDemuxer Sync Stream Page Packet) (playing : Bool) :
    Of Sync Stream Page Packet Headers Decoder Picture Time :=
  { (swapBuffers playing (seeing s seen)).2 with demuxer := s.demuxer }

/-- What is left for display: the back buffer as soon as it may be shown. -/
def displayed (s : Of Sync Stream Page Packet Headers Decoder Picture Time) : Option Picture :=
  if s.frameReady = true then s.backBuffer.picture else s.frontBuffer.picture

section Steps

variable (L : LibOgg Sync Stream Page Packet) (content : FileContent) (answers : Nat → Nat)
variable (T : LibTheora Packet Headers Decoder Picture Time) (clock : Clock Time)

/-- A step of the worker or of the main thread. -/
inductive Step : Playback Sync Stream Page Packet Headers Decoder Picture Time →
    Event (OggDemuxer Sync Stream Page Packet) Time →
    Playback Sync Stream Page Packet Headers Decoder Picture Time → Prop
  | returned {x p t} (hidle : x.phase = .idle)
    (h : (decodeFrames L content answers T clock p).result x.stream =
      some (.ok .returned, t)) : Step x (.fill p) ⟨t, .idle, some p⟩
  | unchanged {x p t} (hidle : x.phase = .idle)
    (h : (decodeFrames L content answers T clock p).result x.stream =
      some (.ok (.done none), t)) : Step x (.fill p) ⟨t, .idle, some p⟩
  | decoded {x p t picture} (hidle : x.phase = .idle)
    (h : (decodeFrames L content answers T clock p).result x.stream =
      some (.ok (.done (some picture)), t)) :
    Step x (.fill p) ⟨t, .decoded p picture, x.filledAt⟩
  | disable {x p picture} (hphase : x.phase = .decoded p picture) :
    Step x .disable ⟨{ x.stream with frameReady := false }, .writing p picture, x.filledAt⟩
  | enable {x p picture} (hphase : x.phase = .writing p picture) :
    Step x .enable ⟨x.stream.copied picture, .idle, some p⟩
  | swap {x} (seen : OggDemuxer Sync Stream Page Packet) (playing : Bool) :
    Step x (.swap seen playing) ⟨swapped x.stream seen playing, x.phase, x.filledAt⟩

/-! ## Exchanges -/

section

variable (s : Of Sync Stream Page Packet Headers Decoder Picture Time)
include s

theorem swapBuffers_cases (playing : Bool) :
    swapBuffers playing s = (false, s) ∨ s.frameReady = true ∧
      swapBuffers playing s = (true, { s with
        frontBuffer := s.backBuffer
        backBuffer := s.frontBuffer
        frameReady := false }) := by
  unfold swapBuffers
  split_ifs with heos hplaying hready
  · exact .inl rfl
  · exact .inl rfl
  · exact .inl rfl
  · refine .inr ⟨?_, rfl⟩
    cases h : s.frameReady with
    | true => rfl
    | false =>
      rw [h] at hready
      exact absurd rfl hready

theorem swapped_cases (seen : OggDemuxer Sync Stream Page Packet) (playing : Bool) :
    swapped s seen playing = s ∨ s.frameReady = true ∧ swapped s seen playing = { s with
      frontBuffer := s.backBuffer
      backBuffer := s.frontBuffer
      frameReady := false } := by
  rw [swapped]
  rcases swapBuffers_cases (seeing s seen) playing with h | ⟨hready, h⟩
  · rw [h]
    exact .inl rfl
  · rw [h]
    exact .inr ⟨hready, rfl⟩

theorem displayed_swapped (seen : OggDemuxer Sync Stream Page Packet) (playing : Bool) :
    displayed (swapped s seen playing) = displayed s := by
  rcases swapped_cases s seen playing with h | ⟨hready, h⟩
  · rw [h]
  · rw [h, displayed, displayed, if_pos hready]
    rfl

end

/-- While a buffer is written, there is no exchange. -/
def Guarded (x : Playback Sync Stream Page Packet Headers Decoder Picture Time) : Prop :=
  ∀ p picture, x.phase = .writing p picture →
    ∀ seen playing, (swapBuffers playing (seeing x.stream seen)).1 = false

theorem guarded_of_disabled {x : Playback Sync Stream Page Packet Headers Decoder Picture Time}
    (h : ∀ p picture, x.phase = .writing p picture → x.stream.frameReady = false) :
    Guarded x := by
  intro p picture hphase seen playing
  rcases swapBuffers_cases (seeing x.stream seen) playing with hswap | ⟨hready, -⟩
  · rw [hswap]
  · have hdisabled : (seeing x.stream seen).frameReady = false := h p picture hphase
    rw [hdisabled] at hready
    cases hready

variable {s : Of Sync Stream Page Packet Headers Decoder Picture Time}

theorem swapped_disabled (h : s.frameReady = false) (seen : OggDemuxer Sync Stream Page Packet)
    (playing : Bool) :
    (swapped s seen playing).frameReady = false := by
  rcases swapped_cases s seen playing with hswap | ⟨-, hswap⟩
  · rwa [hswap]
  · rw [hswap]

theorem Step.disabled {x y : Playback Sync Stream Page Packet Headers Decoder Picture Time}
    {e : Event (OggDemuxer Sync Stream Page Packet) Time}
    (hstep : Step L content answers T clock x e y)
    (h : ∀ p picture, x.phase = .writing p picture → x.stream.frameReady = false) :
    ∀ p picture, y.phase = .writing p picture → y.stream.frameReady = false := by
  cases hstep with
  | returned hidle hfill =>
    intro p picture hphase
    cases hphase
  | unchanged hidle hfill =>
    intro p picture hphase
    cases hphase
  | decoded hidle hfill =>
    intro p picture hphase
    cases hphase
  | disable hphase =>
    intro _ _ _
    rfl
  | enable hphase =>
    intro p picture hphase
    cases hphase
  | swap seen playing =>
    intro p picture hphase
    exact swapped_disabled (h p picture hphase) seen playing

/-! ## A stream that was opened -/

variable {L content answers T clock}

/-- The constructor has shown nothing. -/
def Unshown (s : Of Sync Stream Page Packet Headers Decoder Picture Time) : Prop :=
  s.lastFrame = clock.zero ∧ s.nextFrame = clock.zero

theorem keeps_throw {α : Type} (e : Thrown) :
    Keeps (@Unshown Sync Stream Page Packet Headers Decoder Picture Time clock)
      (LoopM.throw e : LoopM Thrown _ α) := by
  intro s hs r t hr
  rw [LoopM.result_throw] at hr
  cases hr
  exact hs

theorem keeps_headerPacket :
    Keeps (@Unshown Sync Stream Page Packet Headers Decoder Picture Time clock)
      (headerPacket L content answers T) := by
  refine .bind (keeps_demux _ fun s d hs => hs) fun _ => .get_bind fun s hs r t hr => ?_
  rw [LoopM.result_bind_ok (LoopM.result_set _ _), LoopM.result_pure] at hr
  cases hr
  exact hs

theorem keeps_makeDecoder :
    Keeps (@Unshown Sync Stream Page Packet Headers Decoder Picture Time clock)
      (makeDecoder T) := by
  have hexcept : ∀ f : Except Thrown (Frame Picture),
      Keeps (@Unshown Sync Stream Page Packet Headers Decoder Picture Time clock)
        (ofExcept f : Theora Sync Stream Page Packet Headers Decoder Picture Time _) := by
    intro f
    cases f with
    | ok frame => exact .pure frame
    | error e => exact keeps_throw e
  refine .get_bind fun s hs r t hr => ?_
  rw [LoopM.result_bind_ok (LoopM.result_set _ _)] at hr
  refine (?_ : Keeps (@Unshown _ _ _ _ _ _ _ _ clock) _) _ ?_ r t hr
  · exact .bind (hexcept _) fun backBuffer => .bind (.modify fun s hs => hs) fun _ =>
      .bind (hexcept _) fun frontBuffer => .modify fun s hs => hs
  · exact hs

theorem keeps_parseHeader :
    Keeps (@Unshown Sync Stream Page Packet Headers Decoder Picture Time clock)
      (parseHeader L content answers T) := by
  refine .get_bind fun s hs r t hr => ?_
  split_ifs at hr
  · rw [LoopM.result_pure] at hr
    cases hr
    exact hs
  · have hturn : ∀ ret, Keeps (@Unshown Sync Stream Page Packet Headers Decoder Picture Time clock)
        (headerTurn L content answers T ret) := by
      intro ret
      unfold headerTurn
      split_ifs
      · exact .bind keeps_headerPacket fun ret => .pure _
      · exact .pure _
    refine (?_ : Keeps (@Unshown _ _ _ _ _ _ _ _ clock) _) s hs r t hr
    refine .bind (.modify fun s hs => hs) fun _ => .bind keeps_headerPacket fun ret => ?_
    split_ifs
    · exact .bind (.modify fun s hs => hs) fun _ => .bind (.modify fun s hs => hs) fun _ =>
        keeps_throw _
    · exact .bind (.repeatM hturn ret) fun _ => .bind (.modify fun s hs => hs) fun _ =>
        .bind (.modify fun s hs => hs) fun _ => .bind (.modify fun s hs => hs) fun _ =>
          keeps_makeDecoder

theorem construct_unshown {d : OggDemuxer Sync Stream Page Packet}
    (h : (construct L content answers T).result (unbuilt T clock d) = some (.ok (), s)) :
    s.lastFrame = clock.zero ∧ s.nextFrame = clock.zero := by
  have hall : Keeps (@Unshown Sync Stream Page Packet Headers Decoder Picture Time clock)
      (construct L content answers T) := by
    refine .bind (keeps_demux _ fun s d hs => hs) fun type => ?_
    split_ifs
    · exact keeps_throw _
    · refine .bind (.modify fun s hs => hs) fun _ s hs r t hr => ?_
      rw [catchLove_result] at hr
      obtain ⟨⟨r', t'⟩, hr', heq⟩ := Option.map_eq_some_iff.mp hr
      have hkept := keeps_parseHeader s hs r' t' hr'
      cases r' with
      | ok u =>
        cases heq
        exact hkept
      | error e =>
        cases e with
        | love message =>
          cases heq
          exact hkept
        | badArrayNewLength =>
          cases heq
          exact hkept
  exact hall _ ⟨rfl, rfl⟩ _ _ h

/-! ## Runs -/

section Runs

variable [LinearOrder Time] (F : Frames Packet Headers Decoder Picture Time T clock)

variable (L content answers) in
/-- A stream whose headers were read, with its first frame in the decoder, and what is done with
it. -/
def playback : System (Playback Sync Stream Page Packet Headers Decoder Picture Time)
    (Event (OggDemuxer Sync Stream Page Packet) Time) where
  init x := x.phase = .idle ∧ x.filledAt = none ∧ F.At L content answers 0 x.stream ∧
    ∃ d, (construct L content answers T).result (unbuilt T clock d) = some (.ok (), x.stream)
  step := Step L content answers T clock

/-- A fill does not seek, and it does not come to the end of the stream. -/
def Smooth (x : Playback Sync Stream Page Packet Headers Decoder Picture Time) :
    Event (OggDemuxer Sync Stream Page Packet) Time → Prop
  | .fill position => ¬ position < x.stream.lastFrame ∧
      ∀ k d, x.stream.decoder = some d → F.Has k d →
        F.Reaches position 6 x.stream.nextFrame k
  | _ => True

/-- Where a fill is completed, the frame that is due is left for display. -/
def Right (x : Playback Sync Stream Page Packet Headers Decoder Picture Time) : Prop :=
  x.phase = .idle → ∀ position k, x.filledAt = some position → F.Due k position → k < F.count →
    displayed x.stream = some (F.picture k)

/-- The frame that is due is the first one, or the same picture as the one before it. -/
def Repeated (position : Time) : Prop :=
  ∀ k, F.Due k position → k < F.count → F.picture k = F.picture (k - 1)

variable {F}

/-- What has been filled: frame `c`, the one before the last that was decoded. -/
def Taken (c : Nat) (x : Playback Sync Stream Page Packet Headers Decoder Picture Time) : Prop :=
  match x.phase with
  | .idle => displayed x.stream = some (F.picture c) ∧ ∃ position, x.filledAt = some position ∧
      x.stream.lastFrame ≤ position ∧ position < x.stream.nextFrame
  | .decoded position picture | .writing position picture => picture = some (F.picture c) ∧
      x.stream.lastFrame ≤ position ∧ position < x.stream.nextFrame

variable (L content answers F) in
/-- Nothing has been filled, or the decoder is one frame ahead. -/
inductive Tracks (x : Playback Sync Stream Page Packet Headers Decoder Picture Time) : Prop
  | opened (hidle : x.phase = .idle) (hnone : x.filledAt = none)
    (hat : F.At L content answers 0 x.stream) (hlast : x.stream.lastFrame = clock.zero)
    (hnext : x.stream.nextFrame = clock.zero)
  | filled {c k} (hfollows : F.Follows c k) (hat : F.At L content answers k x.stream)
    (hlast : x.stream.lastFrame = F.start (c + 1) ∨ c = 0 ∧ x.stream.lastFrame = clock.zero)
    (hnext : x.stream.nextFrame = F.start (k + 1)) (htaken : Taken (F := F) c x)

theorem Tracks.at {x : Playback Sync Stream Page Packet Headers Decoder Picture Time}
    (h : Tracks L content answers F x) : ∃ k, F.At L content answers k x.stream ∧
      (x.stream.nextFrame = F.start (k + 1) ∨ k = 0 ∧ x.stream.nextFrame = clock.zero) := by
  cases h with
  | opened hidle hnone hat hlast hnext => exact ⟨0, hat, .inr ⟨rfl, hnext⟩⟩
  | filled hfollows hat hlast hnext htaken => exact ⟨_, hat, .inl hnext⟩

/-- A fill that is smooth: it has nothing to do, or the decoder goes on, one frame ahead of what is
taken. -/
theorem Tracks.fill {x : Playback Sync Stream Page Packet Headers Decoder Picture Time}
    (h : Tracks L content answers F x) (hidle : x.phase = .idle) {position : Time}
    (hsmooth : Smooth F x (.fill position)) :
    ((decodeFrames L content answers T clock position).result x.stream =
        some (.ok (.done none), x.stream) ∧
      Tracks L content answers F ⟨x.stream, .idle, some position⟩) ∨
    ∃ c t, (decodeFrames L content answers T clock position).result x.stream =
        some (.ok (.done (some (some (F.picture c)))), t) ∧
      Tracks L content answers F ⟨t, .decoded position (some (F.picture c)), x.filledAt⟩ := by
  obtain ⟨k, hat, hend⟩ := h.at
  obtain ⟨d, hdecoder, hhas⟩ := hat.decoder
  rcases Frames.decodeFrames_result hat hsmooth.1 (hsmooth.2 k d hdecoder hhas) with
    ⟨hbefore, hresult⟩ | ⟨-, c, k', t, hfilled, hresult⟩
  · refine .inl ⟨hresult, ?_⟩
    cases h with
    | opened _ hnone _ hlast hnext =>
      rw [hnext, ← hlast] at hbefore
      exact absurd hbefore hsmooth.1
    | filled hfollows hat hlast hnext htaken =>
      rw [Taken, hidle] at htaken
      exact .filled hfollows hat hlast hnext
        ⟨htaken.1, position, rfl, not_lt.mp hsmooth.1, hbefore⟩
  · refine .inr ⟨c, t, hresult, ?_⟩
    have hnext : t.nextFrame = F.start (k' + 1) := by
      obtain ⟨d', decoder, lastFrame, ht⟩ := hfilled.rest
      rw [ht]
      rfl
    refine .filled hfilled.follows hfilled.at_last ?_ hnext ⟨rfl, hfilled.last_le, ?_⟩
    · rcases hfilled.last with hlast | ⟨rfl, hlast⟩
      · exact .inl hlast
      · rcases hend with hend | ⟨rfl, hend⟩
        · exact .inl (hlast.trans hend)
        · exact .inr ⟨rfl, hlast.trans hend⟩
    · rw [hnext]
      exact hfilled.lt_next

theorem at_swapped {k : Nat} {s : Of Sync Stream Page Packet Headers Decoder Picture Time}
    (h : F.At L content answers k s) (seen : OggDemuxer Sync Stream Page Packet)
    (playing : Bool) : F.At L content answers k (swapped s seen playing) ∧
      (swapped s seen playing).lastFrame = s.lastFrame ∧
      (swapped s seen playing).nextFrame = s.nextFrame := by
  rcases swapped_cases s seen playing with hswap | ⟨-, hswap⟩
  · rw [hswap]
    exact ⟨h, rfl, rfl⟩
  · rw [hswap]
    exact ⟨⟨h.decoder, h.delivers, h.eos⟩, rfl, rfl⟩

/-- **A step** that does not seek. -/
theorem Tracks.step {x y : Playback Sync Stream Page Packet Headers Decoder Picture Time}
    {e : Event (OggDemuxer Sync Stream Page Packet) Time} (h : Tracks L content answers F x)
    (hsmooth : Smooth F x e) (hstep : Step L content answers T clock x e y) :
    Tracks L content answers F y := by
  cases hstep with
  | returned hidle hfill =>
    rcases h.fill hidle hsmooth with ⟨hresult, -⟩ | ⟨c, t, hresult, -⟩
    all_goals
      rw [hfill] at hresult
      cases hresult
  | unchanged hidle hfill =>
    rcases h.fill hidle hsmooth with ⟨hresult, hnext⟩ | ⟨c, t, hresult, -⟩
    · rw [hfill] at hresult
      cases hresult
      exact hnext
    · rw [hfill] at hresult
      cases hresult
  | decoded hidle hfill =>
    rcases h.fill hidle hsmooth with ⟨hresult, -⟩ | ⟨c, t, hresult, hnext⟩
    · rw [hfill] at hresult
      cases hresult
    · rw [hfill] at hresult
      cases hresult
      exact hnext
  | disable hphase =>
    cases h with
    | opened hidle _ _ _ _ =>
      rw [hidle] at hphase
      cases hphase
    | filled hfollows hat hlast hnext htaken =>
      rw [Taken, hphase] at htaken
      exact .filled hfollows ⟨hat.decoder, hat.delivers, hat.eos⟩ hlast hnext htaken
  | enable hphase =>
    cases h with
    | opened hidle _ _ _ _ =>
      rw [hidle] at hphase
      cases hphase
    | filled hfollows hat hlast hnext htaken =>
      rw [Taken, hphase] at htaken
      obtain ⟨rfl, hle, hlt⟩ := htaken
      exact .filled hfollows ⟨hat.decoder, hat.delivers, hat.eos⟩ hlast hnext
        ⟨rfl, _, rfl, hle, hlt⟩
  | swap seen playing =>
    cases h with
    | opened hidle hnone hat hlast hnext =>
      obtain ⟨hat', hlast', hnext'⟩ := at_swapped hat seen playing
      exact .opened hidle hnone hat' (hlast'.trans hlast) (hnext'.trans hnext)
    | filled hfollows hat hlast hnext htaken =>
      obtain ⟨hat', hlast', hnext'⟩ := at_swapped hat seen playing
      refine .filled hfollows hat' ?_ (hnext'.trans hnext) ?_
      · rw [hlast']
        exact hlast
      · rw [Taken] at htaken ⊢
        rw [hlast', hnext', displayed_swapped]
        exact htaken

section

variable {x : Playback Sync Stream Page Packet Headers Decoder Picture Time}

theorem Tracks.displayed (h : Tracks L content answers F x) (hidle : x.phase = .idle)
    {position : Time} (hposition : x.filledAt = some position) {j : Nat} (hdue : F.Due j position) :
    displayed x.stream = some (F.picture (j - 1)) := by
  cases h with
  | opened _ hnone _ _ _ =>
    rw [hnone] at hposition
    cases hposition
  | @filled c k hfollows hat hlast hnext htaken =>
    rw [Taken, hidle] at htaken
    obtain ⟨hshown, p, hp, hle, hlt⟩ := htaken
    rw [hposition] at hp
    cases hp
    rw [hshown]
    have hjk : j < k + 1 := F.start_mono.lt_iff_lt.mp (hdue.1.trans_lt (hnext ▸ hlt))
    have hfirst : c = 0 ∧ j = 0 ∨ c ≤ j - 1 ∧ 0 < j := by
      rcases hlast with hlast | ⟨rfl, -⟩
      · have hcj := F.start_mono.lt_iff_lt.mp ((hlast ▸ hle).trans_lt hdue.2)
        omega
      · omega
    rcases hfirst with ⟨rfl, rfl⟩ | ⟨hle, hpos⟩
    · rfl
    · rw [hfollows.picture hle (by omega)]

/-- In a run that does not seek, the right frame is shown when it is the same as the one before. -/
theorem Tracks.right_iff (h : Tracks L content answers F x) : Right F x ↔
      (x.phase = .idle → ∀ position, x.filledAt = some position → Repeated F position) := by
  refine forall_congr' fun hidle => forall_congr' fun position => ?_
  constructor
  · intro hright hposition k hdue hlt
    have hshown := hright k hposition hdue hlt
    rw [h.displayed hidle hposition hdue] at hshown
    exact (Option.some.inj hshown).symm
  · intro hsame k hposition hdue hlt
    rw [h.displayed hidle hposition hdue, hsame hposition k hdue hlt]

theorem tracks_init (h : (playback L content answers F).init x) : Tracks L content answers F x := by
  obtain ⟨hidle, hnone, hat, d, hconstruct⟩ := h
  obtain ⟨hlast, hnext⟩ := construct_unshown hconstruct
  exact .opened hidle hnone hat hlast hnext

end

/-- Fills are made at such positions alone. -/
structure FilledWhere (P : Time → Prop)
    (x : Playback Sync Stream Page Packet Headers Decoder Picture Time) : Prop where
  done : ∀ position, x.filledAt = some position → P position
  decoded : ∀ position picture, x.phase = .decoded position picture → P position
  writing : ∀ position picture, x.phase = .writing position picture → P position

omit [LinearOrder Time] in
theorem FilledWhere.step {P : Time → Prop}
    {x y : Playback Sync Stream Page Packet Headers Decoder Picture Time}
    {e : Event (OggDemuxer Sync Stream Page Packet) Time} (h : FilledWhere P x)
    (hfill : ∀ position, e = .fill position → P position)
    (hstep : Step L content answers T clock x e y) : FilledWhere P y := by
  cases hstep with
  | returned hidle hresult | unchanged hidle hresult =>
    constructor
    · rintro position ⟨⟩
      exact hfill _ rfl
    all_goals
      intro position picture hphase
      cases hphase
  | decoded hidle hresult =>
    constructor
    · exact h.done
    · rintro position picture ⟨⟩
      exact hfill _ rfl
    · intro position picture hphase
      cases hphase
  | disable hphase =>
    constructor
    · exact h.done
    · intro position picture hphase
      cases hphase
    · rintro position picture ⟨⟩
      exact h.decoded _ _ hphase
  | enable hphase =>
    constructor
    · rintro position ⟨⟩
      exact h.writing _ _ hphase
    all_goals
      intro position picture hphase
      cases hphase
  | swap seen playing => exact ⟨h.done, h.decoded, h.writing⟩

end Runs

end Steps

end Playback

/-! ## A stream of two frames -/

/-- libogg on a stream of three packets, on one page. -/
def numberedOgg : LibOgg Unit Nat Unit Nat where
  pageout _ := (.page (), ())
  wrote sync _ := sync
  syncReset sync := sync
  pageseek sync page := (sync, page)
  streamInit _ _ := 0
  streamClear stream := stream
  streamReset stream := stream
  streamCheck _ := true
  pagein stream _ := stream
  packetout stream := if stream < 3 then (some stream, stream + 1) else (none, stream)
  packetpeek stream := (some stream, stream)
  serialno _ := 0
  bos _ := true
  eos _ := true
  packets _ := ⟨3, by decide⟩
  granulepos _ := -1
  data _ := [0x80, 0x74, 0x68, 0x65, 0x6F, 0x72, 0x61]

/-- libtheora on that stream: the first packet is a header, and a decoder is the packet that it
decoded last. -/
def numberedTheora : LibTheora Nat Unit Nat Nat Int where
  headersInit := ()
  headerin _ packet := if packet = 0 then (1, ()) else (0, ())
  hasSetup _ := true
  info _ := ⟨16, 16, 16, 16, 0, 0, .pf420⟩
  decodeAlloc _ := some 0
  packetin _ packet := ((0, packet), packet)
  setGranpos decoder _ := decoder
  ycbcrOut decoder := decoder
  granuleTime _ granulepos := granulepos

/-- One frame a second. -/
def seconds : Clock Int where
  lt a b := decide (a < b)
  le a b := decide (a ≤ b)
  isMinusOne a := decide (a = -1)
  rewind a := decide (a < 1)
  zero := 0
  minusOne := -1

def numbered : Frames Nat Unit Nat Nat Int numberedTheora seconds where
  count := 2
  packet k := k + 1
  picture k := k + 1
  kept _ := true
  start k := k
  Has k decoder := decoder = k + 1
  start_zero := rfl
  start_mono := Nat.strictMono_cast
  le_iff a b := decide_eq_true_iff
  lt_iff a b := decide_eq_true_iff
  repeats k h := by cases h
  ycbcrOut h := h
  setGranpos h _ := h
  packetin {k} _ _ _ := ⟨rfl, iff_of_true rfl rfl, rfl⟩

def noFile : FileContent := ⟨[], by decide⟩

/-- The demuxer of the file. -/
def unread : OggDemuxer Unit Nat Unit Nat := ⟨0, 0, (), 0, (), false, 0, false, 0⟩

/-- The stream with its first frame in the decoder. -/
def numberedOpened : Of Unit Nat Unit Nat Unit Nat Nat Int :=
  { unbuilt numberedTheora seconds ⟨0, 0, (), 2, (), true, 0, false, 1⟩ with
    headerParsed := true
    decoder := some 1
    frontBuffer := frameOf (numberedTheora.info ())
    backBuffer := frameOf (numberedTheora.info ())
    live := [.decoder, .backBuffer, .frontBuffer, .videoInfo] }

/-- One second later the other frame is in the decoder. -/
def numberedFilled : Of Unit Nat Unit Nat Unit Nat Nat Int :=
  { numberedOpened with
    demuxer := ⟨0, 0, (), 3, (), true, 0, false, 2⟩
    decoder := some 2
    nextFrame := 2 }

theorem numbered_construct :
    (construct numberedOgg noFile (fun _ => 0) numberedTheora).result
      (unbuilt numberedTheora seconds unread) = some (.ok (), numberedOpened) :=
  LoopM.result_of_run (n := 3) (by decide +kernel)

theorem numbered_fill :
    (decodeFrames numberedOgg noFile (fun _ => 0) numberedTheora seconds 1).result
      numberedOpened = some (.ok (.done (some (some 1))), numberedFilled) :=
  LoopM.result_of_run (n := 3) (by decide +kernel)

theorem numbered_delivers :
    Frames.Delivers numberedOgg noFile (fun _ => 0) numbered 1 numberedOpened.demuxer := by
  have hread : (OggDemuxer.readPacket numberedOgg noFile (fun _ => 0) false).result
      numberedOpened.demuxer = some (.ok false, ⟨0, 0, (), 3, (), true, 0, false, 2⟩) :=
    LoopM.result_of_run (n := 2) (by decide +kernel)
  have hend : (OggDemuxer.readPacket numberedOgg noFile (fun _ => 0) false).result
      ⟨0, 0, (), 3, (), true, 0, false, 2⟩ =
        some (.ok true, ⟨0, 0, (), 3, (), true, 0, true, 2⟩) :=
    LoopM.result_of_run (n := 2) (by decide +kernel)
  exact .next (by decide) hread rfl (.last hend)

end Lhatove.Video
