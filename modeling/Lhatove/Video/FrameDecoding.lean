import Lhatove.Video.TheoraConstructor

/-!
# The frames of a Theora stream

What a fill makes of a stream whose frames are one behind the other.

- `Frames`: what is known of libtheora for the packets of a stream;
- `Delivers`: what is left for a demuxer;
- `Follows`: the next frame that is not dropped;
- `decodeFrames_result`: a fill without a seek takes the picture of the frame before the last one
  that it decodes.
-/

namespace Lhatove.Video

open Filesystem (FileContent)
open LoopM

/-- Frames of a stream, as libtheora decodes them. A frame that was dropped by the encoder has an
empty packet and repeats the picture before it; its packet is not answered with 0. `Has k` are the
decoders that have frame `k`, which starts at `start k`; frame `k` ends when its granule position
says. -/
structure Frames (Packet Headers Decoder Picture Time : Type) [LinearOrder Time]
    (T : LibTheora Packet Headers Decoder Picture Time) (clock : Clock Time) where
  count : Nat
  packet : Nat → Packet
  picture : Nat → Picture
  kept : Nat → Bool
  start : Nat → Time
  Has : Nat → Decoder → Prop
  start_zero : start 0 = clock.zero
  start_mono : StrictMono start
  le_iff : ∀ a b, clock.le a b = true ↔ a ≤ b
  lt_iff : ∀ a b, clock.lt a b = true ↔ a < b
  repeats : ∀ k, kept (k + 1) = false → picture (k + 1) = picture k
  ycbcrOut : ∀ {k d}, Has k d → T.ycbcrOut d = picture k
  setGranpos : ∀ {k d}, Has k d → ∀ granulepos, Has k (T.setGranpos d granulepos)
  packetin : ∀ {k d}, Has k d → k + 1 < count →
    Has (k + 1) (T.packetin d (packet (k + 1))).2 ∧
      ((T.packetin d (packet (k + 1))).1.1 = 0 ↔ kept (k + 1) = true) ∧
      T.granuleTime (T.packetin d (packet (k + 1))).2 (T.packetin d (packet (k + 1))).1.2 =
        start (k + 2)

namespace Frames

section Order

variable {Packet Headers Decoder Picture Time : Type} [LinearOrder Time]
variable {T : LibTheora Packet Headers Decoder Picture Time} {clock : Clock Time}
variable (F : Frames Packet Headers Decoder Picture Time T clock)

/-- The frame is due at the time. -/
def Due (k : Nat) (position : Time) : Prop := F.start k ≤ position ∧ position < F.start (k + 1)

/-- The second frame is the first one behind the other that is not dropped. -/
inductive Follows : Nat → Nat → Prop
  | kept {k} (hlt : k + 1 < F.count) (h : F.kept (k + 1) = true) : Follows k (k + 1)
  | dropped {k k'} (hlt : k + 1 < F.count) (h : F.kept (k + 1) = false)
    (hrest : Follows (k + 1) k') : Follows k k'

/-- With at most as many frames more, there is one that ends behind the time: `next` is the end of
frame `k`. -/
inductive Reaches (position : Time) : Nat → Time → Nat → Prop
  | done {n next k} (h : position < next) : Reaches position n next k
  | frame {n next k k'} (h : next ≤ position) (hfollows : F.Follows k k')
    (hrest : Reaches position n (F.start (k' + 1)) k') : Reaches position (n + 1) next k

variable {F}

theorem Follows.picture {k k' : Nat} (h : F.Follows k k') {j : Nat} (hj : k ≤ j) (hlt : j < k') :
    F.picture j = F.picture k := by
  induction h with
  | kept _ _ => rw [Nat.le_antisymm (Nat.lt_succ_iff.mp hlt) hj]
  | dropped _ hdropped hrest ih =>
    rcases Nat.eq_or_lt_of_le hj with rfl | hj
    · rfl
    · rw [ih hj hlt, F.repeats _ hdropped]

end Order

section Fill

variable {Sync Stream Page Packet Headers Decoder Picture Time : Type} [LinearOrder Time]
variable {L : LibOgg Sync Stream Page Packet} {content : FileContent} {answers : Nat → Nat}
variable {T : LibTheora Packet Headers Decoder Picture Time} {clock : Clock Time}
variable {F : Frames Packet Headers Decoder Picture Time T clock}

open TheoraVideoStream

variable (L content answers F) in
/-- The packets that a demuxer reads from frame `k` on, up to the end of the stream. -/
inductive Delivers : Nat → OggDemuxer Sync Stream Page Packet → Prop
  | last {d d'}
    (h : (OggDemuxer.readPacket L content answers false).result d = some (.ok true, d')) :
    Delivers F.count d
  | next {k d d'} (hlt : k < F.count)
    (h : (OggDemuxer.readPacket L content answers false).result d = some (.ok false, d'))
    (hpacket : d'.packet = F.packet k) (hrest : Delivers (k + 1) d') : Delivers k d

theorem Delivers.read {k : Nat} {d : OggDemuxer Sync Stream Page Packet}
    (h : Delivers L content answers F k d) (hlt : k < F.count) :
    ∃ d', (OggDemuxer.readPacket L content answers false).result d = some (.ok false, d') ∧
      d'.packet = F.packet k ∧ Delivers L content answers F (k + 1) d' := by
  cases h with
  | last h => exact absurd hlt (lt_irrefl _)
  | next _ hread hpacket hrest => exact ⟨_, hread, hpacket, hrest⟩

theorem readPacket_eos {mustSucceed : Bool} {d d' : OggDemuxer Sync Stream Page Packet}
    (h : (OggDemuxer.readPacket L content answers mustSucceed).result d = some (.ok false, d')) :
    d'.eos = false := by
  unfold OggDemuxer.readPacket at h
  rw [result_bind_ok (result_get d)] at h
  split_ifs at h
  · rw [result_throw] at h
    cases h
  · have hturn : ∀ (b : Unit) (s : OggDemuxer Sync Stream Page Packet), True → ∀ r t,
        (OggDemuxer.packetTurn L content answers mustSucceed).result s = some (r, t) →
        LoopM.Leads (fun _ _ => True) (fun r t => r = .ok false → t.eos = false) r t := by
      intro b s _ r t hr
      unfold OggDemuxer.packetTurn at hr
      rw [result_bind_ok (result_get s)] at hr
      rcases hout : L.packetout s.stream with ⟨_ | packet, stream⟩
      · -- another page, or the end
        rw [hout] at hr
        rw [result_bind_ok (result_set _ _)] at hr
        obtain ⟨e, -, rfl⟩ | ⟨ended, u, -, hr⟩ := result_bind_some hr
        · intro h
          cases h
        · cases ended with
          | true =>
            rw [if_pos rfl, result_pure] at hr
            cases hr
            intro h
            cases h
          | false =>
            rw [if_neg Bool.false_ne_true, result_bind_ok (result_modify _ _),
              result_pure] at hr
            cases hr
            trivial
      · rw [hout] at hr
        rw [result_bind_ok (result_set _ _), result_pure] at hr
        cases hr
        intro _
        rfl
    exact repeatM_post
      hturn trivial h rfl

variable (L content answers F) in
/-- A stream whose decoder has frame `k`; the others are ahead. -/
structure At (k : Nat) (s : Of Sync Stream Page Packet Headers Decoder Picture Time) : Prop where
  decoder : ∃ d, s.decoder = some d ∧ F.Has k d
  delivers : Delivers L content answers F (k + 1) s.demuxer
  eos : s.demuxer.eos = false

/-- The stream, but for its demuxer and its decoder. -/
def moved (s : Of Sync Stream Page Packet Headers Decoder Picture Time)
    (d : OggDemuxer Sync Stream Page Packet) (decoder : Decoder) :
    Of Sync Stream Page Packet Headers Decoder Picture Time :=
  { s with demuxer := d, decoder := some decoder }

omit [LinearOrder Time] in
theorem demux_ok {α : Type} {x : Demux Sync Stream Page Packet α}
    {s : Of Sync Stream Page Packet Headers Decoder Picture Time} {a : α}
    {d : OggDemuxer Sync Stream Page Packet} (h : x.result s.demuxer = some (.ok a, d)) :
    (demux x).result s = some (.ok a, { s with demuxer := d }) := by
  rw [demux_result, h]
  rfl

theorem has_decodeCtl {k : Nat} {d : Decoder} (h : F.Has k d) (granulepos : Int) :
    ∃ d', (if 0 < granulepos then T.decodeCtl (some d) granulepos else some d) = some d' ∧
      F.Has k d' := by
  split_ifs
  · exact ⟨_, rfl, F.setGranpos h granulepos⟩
  · exact ⟨d, rfl, h⟩

/-- A turn of the inner loop decodes the next packet; it is the last turn unless the frame was
dropped. -/
theorem packetTurn_result {k : Nat}
    {s : Of Sync Stream Page Packet Headers Decoder Picture Time}
    (hs : At L content answers F k s) (hlt : k + 1 < F.count) :
    ∃ d decoder position, (packetTurn L content answers T).result s =
        some (.ok (if F.kept (k + 1) = true then .inr (some position) else .inl ()),
          moved s d decoder) ∧
      At L content answers F (k + 1) (moved s d decoder) ∧
      T.granuleTime decoder position = F.start (k + 2) := by
  obtain ⟨d', hread, hpacket, hrest⟩ := hs.delivers.read hlt
  obtain ⟨dec, hdec, hhas⟩ := hs.decoder
  obtain ⟨dec', hctl, hhas'⟩ := has_decodeCtl hhas (L.granulepos d'.packet)
  obtain ⟨hnext, hret, htime⟩ := F.packetin hhas' hlt
  rw [← hpacket] at hnext hret htime
  refine ⟨d', (T.packetin dec' d'.packet).2, (T.packetin dec' d'.packet).1.2, ?_,
    ⟨⟨_, rfl, hnext⟩, hrest, readPacket_eos hread⟩, htime⟩
  obtain ⟨u, hu⟩ : ∃ u, u = { s with demuxer := d', decoder := some dec' } := ⟨_, rfl⟩
  have hmodify : (if 0 < L.granulepos d'.packet then
      ({ s with demuxer := d', decoder := T.decodeCtl s.decoder (L.granulepos d'.packet) } :
        Of Sync Stream Page Packet Headers Decoder Picture Time)
      else { s with demuxer := d' }) = u := by
    rw [hu, hdec]
    split_ifs at hctl ⊢ with hpos
    · rw [hctl]
    · rw [← hctl, ← hdec]
  unfold packetTurn
  rw [result_bind_ok (demux_ok hread), if_neg Bool.false_ne_true,
    result_bind_ok (result_modify _ _)]
  rw [hmodify, result_bind_ok (result_get u), hu]
  have hdecode : T.decodePacketin (some dec') d'.packet =
      ((T.packetin dec' d'.packet).1, some (T.packetin dec' d'.packet).2) := rfl
  rw [hdecode]
  rw [result_bind_ok (result_set _ _)]
  by_cases hkept : F.kept (k + 1) = true
  · rw [if_neg (not_not.mpr (hret.mpr hkept)), if_pos hkept, result_pure]
    rfl
  · rw [if_pos (mt hret.mp hkept), if_neg hkept, result_pure]
    rfl

theorem packets_result {k k' : Nat} (hfollows : F.Follows k k')
    {s : Of Sync Stream Page Packet Headers Decoder Picture Time}
    (hs : At L content answers F k s) :
    ∃ d decoder position,
      (LoopM.repeatM (fun _ : Unit => packetTurn L content answers T) ()).result s =
        some (.ok (some position), moved s d decoder) ∧
      At L content answers F k' (moved s d decoder) ∧
      T.granuleTime decoder position = F.start (k' + 1) := by
  induction hfollows generalizing s with
  | kept hlt hkept =>
    obtain ⟨d, decoder, position, hturn, hat, htime⟩ := packetTurn_result hs hlt
    rw [if_pos hkept] at hturn
    refine ⟨d, decoder, position, ?_, hat, htime⟩
    rw [LoopM.repeatM_result, hturn]
  | dropped hlt hdropped hrest ih =>
    obtain ⟨d, decoder, position, hturn, hat, -⟩ := packetTurn_result hs hlt
    rw [if_neg (ne_true_of_eq_false hdropped)] at hturn
    obtain ⟨d', decoder', position', hloop, hat', htime⟩ := ih hat
    refine ⟨d', decoder', position', ?_, hat', htime⟩
    rw [LoopM.repeatM_result, hturn]
    exact hloop

/-- The stream, but for its demuxer, its decoder and its times. -/
def advanced (s : Of Sync Stream Page Packet Headers Decoder Picture Time)
    (d : OggDemuxer Sync Stream Page Packet) (decoder : Decoder) (lastFrame nextFrame : Time) :
    Of Sync Stream Page Packet Headers Decoder Picture Time :=
  { s with demuxer := d, decoder := some decoder, lastFrame, nextFrame }

theorem At.advanced {k : Nat} {s : Of Sync Stream Page Packet Headers Decoder Picture Time}
    {d : OggDemuxer Sync Stream Page Packet} {decoder : Decoder}
    (h : At L content answers F k (moved s d decoder)) (lastFrame nextFrame : Time) :
    At L content answers F k (advanced s d decoder lastFrame nextFrame) :=
  ⟨h.decoder, h.delivers, h.eos⟩

/-- A turn of the loop, without a seek: the picture is that of the frame before the one that is
decoded. -/
theorem frameTurn_result {k k' : Nat} (hfollows : F.Follows k k') {position : Time}
    {s : Of Sync Stream Page Packet Headers Decoder Picture Time}
    (hs : At L content answers F k s) (hnext : s.nextFrame ≤ position)
    {b : Behind Picture} (hbehind : b.framesBehind ≤ 5) :
    ∃ d decoder, (frameTurn L content answers T clock position b).result s =
        some (.ok (.inl ⟨b.framesBehind + 1, b.failedSeek, some (some (F.picture k))⟩),
          advanced s d decoder s.nextFrame (F.start (k' + 1))) ∧
      At L content answers F k' (advanced s d decoder s.nextFrame (F.start (k' + 1))) := by
  obtain ⟨d, decoder, decoderPosition, hloop, hat, htime⟩ := packets_result hfollows hs
  refine ⟨d, decoder, ?_, hat.advanced _ _⟩
  have hmore : (!s.demuxer.eos && clock.le s.nextFrame position) = true := by
    rw [hs.eos, (F.le_iff _ _).mpr hnext]
    rfl
  have hcatch : (catchUp L content answers T clock position b).result s =
      some (.ok { b with framesBehind := b.framesBehind + 1 }, s) := by
    unfold catchUp
    rw [if_neg (fun h => absurd h.1 (by omega))]
    exact result_pure _ _
  obtain ⟨dec, hdec, hhas⟩ := hs.decoder
  unfold frameTurn
  rw [result_bind_ok (result_get s), if_pos hmore, result_bind_ok hcatch,
    result_bind_ok (result_get s)]
  rw [result_bind_ok hloop]
  rw [result_bind_ok (result_modify _ _), result_pure, hdec,
    LibTheora.decodeYcbcrOut, Option.map_some, F.ycbcrOut hhas]
  dsimp only [moved, LibTheora.decoderTime]
  rw [htime]
  rfl

omit [LinearOrder Time] in
theorem frameTurn_done {position : Time}
    {s : Of Sync Stream Page Packet Headers Decoder Picture Time}
    (hnext : clock.le s.nextFrame position = false) (b : Behind Picture) :
    (frameTurn L content answers T clock position b).result s =
      some (.ok (.inr (.done b.bufferinfo)), s) := by
  have hmore : ¬ (!s.demuxer.eos && clock.le s.nextFrame position) = true := by
    rw [hnext, Bool.and_false]
    exact Bool.false_ne_true
  unfold frameTurn
  rw [result_bind_ok (result_get s), if_neg hmore, result_pure]

variable (L content answers F) in
/-- What is left of a fill that decodes from frame `k` on, whose end is `next`: frame `k'` is the
last one it decodes, and `c` the one before. -/
structure Filled (s t : Of Sync Stream Page Packet Headers Decoder Picture Time) (position : Time)
    (k : Nat) (next : Time) (c k' : Nat) : Prop where
  follows : F.Follows c k'
  at_last : At L content answers F k' t
  rest : ∃ d decoder lastFrame, t = advanced s d decoder lastFrame (F.start (k' + 1))
  last_le : t.lastFrame ≤ position
  lt_next : position < F.start (k' + 1)
  last : t.lastFrame = F.start (c + 1) ∨ c = k ∧ t.lastFrame = next

theorem frames_result {position : Time} {n k : Nat} {next : Time}
    (hreaches : F.Reaches position n next k)
    {s : Of Sync Stream Page Packet Headers Decoder Picture Time}
    (hs : At L content answers F k s) (hnext : s.nextFrame = next) {b : Behind Picture}
    (hbehind : b.framesBehind + n ≤ 6) :
    position < next ∧ (LoopM.repeatM (frameTurn L content answers T clock position) b).result s =
        some (.ok (.done b.bufferinfo), s) ∨
      next ≤ position ∧ ∃ c k' t, Filled L content answers F s t position k next c k' ∧
        (LoopM.repeatM (frameTurn L content answers T clock position) b).result s =
          some (.ok (.done (some (some (F.picture c)))), t) := by
  induction hreaches generalizing s b with
  | done h =>
    have hover : clock.le s.nextFrame position = false := by
      rw [hnext]
      exact eq_false_of_ne_true (mt (F.le_iff _ _).mp (not_le.mpr h))
    refine .inl ⟨h, ?_⟩
    rw [LoopM.repeatM_result, frameTurn_done hover b]
  | @frame n next k k' hle hfollows hrest ih =>
    right
    refine ⟨hle, ?_⟩
    obtain ⟨d, decoder, hturn, hat⟩ :=
      frameTurn_result hfollows hs (hnext ▸ hle) (show b.framesBehind ≤ 5 by omega)
    have hloop : (LoopM.repeatM (frameTurn L content answers T clock position) b).result s =
        (LoopM.repeatM (frameTurn L content answers T clock position)
          ⟨b.framesBehind + 1, b.failedSeek, some (some (F.picture k))⟩).result
            (advanced s d decoder s.nextFrame (F.start (k' + 1))) := by
      rw [LoopM.repeatM_result, hturn]
    rcases ih hat rfl (b := ⟨b.framesBehind + 1, b.failedSeek, some (some (F.picture k))⟩)
      (show b.framesBehind + 1 + n ≤ 6 by omega) with ⟨hlt, hdone⟩ | ⟨-, c, k'', t, hfilled, hdone⟩
    · -- the last turn
      refine ⟨k, k', _, ⟨hfollows, hat, ⟨d, decoder, s.nextFrame, rfl⟩, ?_, hlt, .inr ⟨rfl, hnext⟩⟩,
        hloop.trans hdone⟩
      exact (le_of_eq hnext).trans hle
    · refine ⟨c, k'', t, ⟨hfilled.follows, hfilled.at_last, ?_, hfilled.last_le, hfilled.lt_next,
        ?_⟩, hloop.trans hdone⟩
      · obtain ⟨d', decoder', lastFrame, ht⟩ := hfilled.rest
        exact ⟨d', decoder', lastFrame, ht⟩
      · rcases hfilled.last with h | ⟨rfl, h⟩
        all_goals exact .inl h

/-- **A fill without a seek.** Nothing is filled before the end of the decoder's frame; else the
picture is that of the frame before the last one that is decoded. -/
theorem decodeFrames_result {position : Time} {k : Nat}
    {s : Of Sync Stream Page Packet Headers Decoder Picture Time}
    (hs : At L content answers F k s) (hlast : ¬ position < s.lastFrame)
    (hreaches : F.Reaches position 6 s.nextFrame k) :
    position < s.nextFrame ∧ (decodeFrames L content answers T clock position).result s =
        some (.ok (.done none), s) ∨
      s.nextFrame ≤ position ∧ ∃ c k' t,
        Filled L content answers F s t position k s.nextFrame c k' ∧
        (decodeFrames L content answers T clock position).result s =
          some (.ok (.done (some (some (F.picture c)))), t) := by
  have hstart : (decodeFrames L content answers T clock position).result s =
      (LoopM.repeatM (frameTurn L content answers T clock position) {}).result s := by
    unfold decodeFrames
    rw [result_bind_ok (result_get s), if_neg (mt (F.lt_iff _ _).mp hlast)]
  rw [hstart]
  exact frames_result hreaches hs rfl (Nat.le_refl 6)

end Fill

end Frames

end Lhatove.Video
