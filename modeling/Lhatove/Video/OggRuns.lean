import Lhatove.Video.OggSearch

/-!
# Which calls of the demuxer end

- `Supplied`: the pages ahead, or those from where a search reads, suffice.
- `calls_end`: calls that are supplied end, and calls that end were supplied.
- `not_always_end`: a file that ends with the first page of its video.
- `packetsRead_eq`: packets in turn are those of the pages ahead.
-/

namespace Lhatove.Video

open Filesystem (FileContent)
open LoopM (Maps MapsAt)
open LoopM

section Calls

variable {Sync Stream Page Packet Time : Type} (L : LibOgg Sync Stream Page Packet)
variable (held : Sync → List Byte) (nextPage : List Byte → Option (Page × List Byte))
variable (content : FileContent) (answers : Nat → Nat) (times : Times Time)

/-- The pages of a file as a reader. -/
def PageView.reader : Reader (PageView Stream Page Packet) Packet where
  restart pos v :=
    { v with pages := Video.pages nextPage (content.bytes.drop pos), stream := L.streamReset v.stream }
  readPage := PageView.readPage
  readPacket := PageView.readPacket L
  isEos := eos
  clearEos v := { v with eos := false }
  packets v := L.packets v.page
  packet := packet

/-- The public functions of `OggDemuxer`; `packet` is what the caller's holds before. -/
inductive Call (Packet Time : Type)
  | findStream
  | readPacket (packet : Packet) (mustSucceed : Bool)
  | resync
  | seek (packet : Packet) (target : Time) (getTime : Int → Time)
  | isEos

namespace OggDemuxer

/-- A call, whatever it returns. -/
def call : Call Packet Time → Demux Sync Stream Page Packet Unit
  | .findStream => do
    let _ ← findStream L content answers
  | .readPacket packet mustSucceed => do
    LoopM.modify fun d => { d with packet }
    let _ ← readPacket L content answers mustSucceed
  | .resync => LoopM.modify (resync L)
  | .seek packet target getTime => do
    LoopM.modify fun d => { d with packet }
    let _ ← seek L content answers times getTime target
  | .isEos => pure ()

/-- There are the pages that a search reads. Without a stream it fails after its first
page, if it does not run on for the want of one. -/
def SearchSupplied (d : OggDemuxer Sync Stream Page Packet) (target : Time)
    (getTime : Int → Time) : Prop :=
  let i := d.interval L content times getTime target
  if d.streamInited then
    LoopM.Covered ((PageView.reader L nextPage content).pass times getTime L.granulepos target) i
      (view held nextPage content d)
  else i.Wide → L.streamCheck (L.streamReset d.stream) = true →
    pages nextPage (content.bytes.drop ⌊i.pos⌋₊) ≠ []

/-- There are the pages that a call reads. -/
def Supplied (d : OggDemuxer Sync Stream Page Packet) : Call Packet Time → Prop
  | .readPacket packet mustSucceed => Found d →
    (PageView.readPacket L mustSucceed).Ends (view held nextPage content { d with packet })
  | .seek packet target getTime =>
    if times.rewind target then Found d →
      (PageView.readPacket L true).Ends ((PageView.reader L nextPage content).restart 0
        (view held nextPage content { d with packet, eos := false }))
    else SearchSupplied L held nextPage content times { d with packet, eos := false } target getTime
  | _ => True

/-- The file of a search is below 2^44 bytes, so that `double` tells its positions apart. -/
def Small (d : OggDemuxer Sync Stream Page Packet) : Call Packet Time → Prop
  | .seek .. => content.bytes.length < 2 ^ 44 ∧ d.position < 2 ^ 44
  | _ => True

/-- Calls in turn, each with a property in the state that it is made in. -/
def Along (C : OggDemuxer Sync Stream Page Packet → Call Packet Time → Prop) :
    OggDemuxer Sync Stream Page Packet → List (Call Packet Time) → Prop
  | _, [] => True
  | d, c :: calls => C d c ∧
    ∀ r t, (call L content answers times c).result d = some (r, t) → Along C t calls

variable {L held nextPage content answers times}

theorem alike_reader (h : OggContract L held nextPage) :
    Reader.Alike Found (view held nextPage content) (reader L content answers)
      (PageView.reader L nextPage content) where
  restart pos d hd := by
    obtain ⟨hheld, hpage⟩ := h.pageseek (L.syncReset d.sync) d.page (h.reset d.sync)
    refine ⟨?_, hd⟩
    simp only [PageView.reader, reader, resync, view, ahead, hheld, hpage, List.nil_append]
  readPage := maps_readPage h
  readPacket := maps_readPacket h
  clearEos _ hd := ⟨rfl, hd⟩
  isEos _ := rfl
  packets _ := rfl
  packet _ := rfl

/-! ### Each call -/

theorem determineType_result (d : OggDemuxer Sync Stream Page Packet) :
    ∃ type stream, (determineType L).result d = some (.ok type, { d with stream }) := by
  rw [determineType, result_bind_ok (result_get d)]
  rcases L.packetpeek d.stream with ⟨_ | packet, stream⟩
  · exact ⟨_, _, (result_bind_ok (result_set d _)).trans (result_pure ..)⟩
  · dsimp only
    rw [result_bind_ok (result_set d _)]
    split_ifs
    all_goals exact ⟨_, _, result_pure ..⟩

theorem findStreamTurn_leads (h : OggContract L held nextPage)
    (d : OggDemuxer Sync Stream Page Packet) :
    ∃ r t, (findStreamTurn L content answers).result d = some (r, t) ∧
      LoopM.Leads (fun _ t => True ∧
        (ahead held content t).length < (ahead held content d).length) (fun _ _ => True) r t := by
  obtain ⟨r, d', hr, hless⟩ := @readPage_true _ _ _ _ _ _ _ content answers h d
  rw [findStreamTurn]
  rcases r with e | _ | _
  · exact ⟨_, _, result_bind_error hr, trivial⟩
  · rw [result_bind_ok hr, if_neg Bool.false_ne_true, result_pure]
    exact ⟨_, _, rfl, trivial⟩
  · rw [result_bind_ok hr, if_pos rfl, result_bind_ok (result_get d')]
    split
    · rw [result_bind_ok (result_set d' _), result_pure]
      exact ⟨_, _, rfl, trivial⟩
    · rw [result_bind_ok (result_set d' _)]
      obtain ⟨type, stream, htype⟩ := @determineType_result _ _ _ _ L { d' with
        videoSerial := L.serialno d'.page
        stream := L.pagein (L.streamInit d'.stream (L.serialno d'.page)) d'.page
        streamInited := true }
      rw [result_bind_ok htype]
      cases type with
      | theora => exact ⟨_, _, result_pure .., trivial⟩
      | unknown =>
        exact ⟨_, _, (result_bind_ok (result_modify ..)).trans (result_pure ..),
          trivial, hless rfl⟩

theorem findStream_ends (h : OggContract L held nextPage)
    (d : OggDemuxer Sync Stream Page Packet) : (findStream L content answers).Ends d := by
  refine ends_modify_bind.mpr ?_
  obtain ⟨r, t, hr, -⟩ := repeatM_ends
    (fun _ d => (ahead held content d).length)
    (fun (_ : Unit) d (_ : True) => @findStreamTurn_leads _ _ _ _ _ _ _ content answers h d) trivial
  exact ends_of_result hr

/-- A packet is read if there are pages for it. -/
theorem readPacket_ends_iff (h : OggContract L held nextPage) (mustSucceed : Bool)
    (d : OggDemuxer Sync Stream Page Packet) :
    (readPacket L content answers mustSucceed).Ends d ↔
      (Found d → (PageView.readPacket L mustSucceed).Ends (view held nextPage content d)) := by
  by_cases hd : Found d
  · rw [imp_iff_right hd]
    exact (maps_readPacket h mustSucceed d hd).ends_iff
  · refine iff_of_true ?_ fun hfound => absurd hfound hd
    rw [readPacket, ends_get_bind, if_pos (by rw [Bool.not_eq_true', ← Bool.not_eq_true]; exact hd)]
    exact ends_of_result (result_throw _ d)

/-- Without a stream, `readPage` ends if there is a page, or the stream is known to be none. -/
theorem readPage_ends_iff (h : OggContract L held nextPage)
    {d : OggDemuxer Sync Stream Page Packet} (hd : d.streamInited = false) :
    (reader L content answers).readPage.Ends d ↔
      (L.streamCheck d.stream = true → pages nextPage (ahead held content d) ≠ []) := by
  have hends : (reader L content answers).readPage.Ends d ↔
      (readPage L content answers false).Ends d :=
    ends_bind_iff fun _ t => ends_of_result (result_pure _ t)
  rw [hends]
  cases hcheck : L.streamCheck d.stream with
  | false => exact iff_of_true (readPage_invalid h hd hcheck) nofun
  | true =>
    rw [imp_iff_right rfl, Ne, h.pages_nil]
    cases hnext : nextPage (ahead held content d) with
    | none =>
      refine iff_of_false ?_ (not_not.mpr rfl)
      exact not_ends_iff.mpr (readPage_none h (.inr hcheck) hnext)
    | some next =>
      refine iff_of_true ?_ nofun
      obtain ⟨d', hr, -⟩ := @readPage_some _ _ _ _ _ _ _ _ answers h _ (.inr hcheck) _ _ hnext
      exact ends_of_result hr

/-- Without a stream, a search ends with the first page that it reads, or for the want of
one. -/
theorem search_ends_iff (h : OggContract L held nextPage) {getTime : Int → Time} {target : Time}
    {i : Interval} {d : OggDemuxer Sync Stream Page Packet} (hd : d.streamInited = false)
    (hwide : i.Wide) :
    ((reader L content answers).search times getTime L.granulepos target i).Ends d ↔
      (reader L content answers).readPage.Ends ((reader L content answers).restart ⌊i.pos⌋₊ d) := by
  refine ends_congr ?_
  rw [Reader.search, repeatM_result, Reader.pass, if_pos hwide,
    result_bind_ok (result_modify _ d)]
  rcases hr : (reader L content answers).readPage.result
    ((reader L content answers).restart ⌊i.pos⌋₊ d) with _ | ⟨e | u, t⟩
  · rw [result_bind_none hr]
  · rw [result_bind_error hr]
  · have ht : t.streamInited = false := by
      obtain ⟨e, -, heq⟩ | ⟨ok, t', hread, hr⟩ := result_bind_some hr
      · cases heq
      · rw [result_pure] at hr
        cases hr
        exact readPage_inited h (show ((reader L content answers).restart ⌊i.pos⌋₊ d).streamInited
          = false from hd) hread
    have hthrow : ((reader L content answers).readPacket false).result t =
        some (.error "Reading from OggDemuxer before initialization (engine bug)", t) := by
      show (readPacket L content answers false).result t = _
      rw [readPacket, result_bind_ok (result_get t), ht]
      exact result_throw _ t
    rw [result_bind_ok hr, result_bind_error hthrow]
    refine iff_of_false (fun hok => ?_) (fun hok => ?_)
    · cases hok
    · cases hok

theorem interval_small {d : OggDemuxer Sync Stream Page Packet} {getTime : Int → Time}
    {target : Time} (hsize : content.bytes.length < 2 ^ 44) (hposition : d.position < 2 ^ 44) :
    (d.interval L content times getTime target).Small := by
  obtain ⟨hsize0, hsize1⟩ := Interval.toDouble_natCast hsize
  obtain ⟨hpos0, hpos1⟩ := Interval.toDouble_natCast hposition
  rw [interval]
  split_ifs
  · exact ⟨le_rfl, by norm_num, hsize0, hsize1⟩
  · exact ⟨hpos0, hpos1, hsize0, hsize1⟩
  · exact ⟨le_rfl, by norm_num, hpos0, hpos1⟩
  · exact ⟨le_rfl, by norm_num, hsize0, hsize1⟩

theorem searches_ends (h : OggContract L held nextPage) {getTime : Int → Time} {target : Time}
    {d : OggDemuxer Sync Stream Page Packet} :
    ((content.bytes.length < 2 ^ 44 ∧ d.position < 2 ^ 44) ∧
        SearchSupplied L held nextPage content times d target getTime →
      ((reader L content answers).search times getTime L.granulepos target
        (d.interval L content times getTime target)).Ends d) ∧
    (((reader L content answers).search times getTime L.granulepos target
        (d.interval L content times getTime target)).Ends d →
      SearchSupplied L held nextPage content times d target getTime) := by
  rw [SearchSupplied]
  cases hfound : d.streamInited with
  | true =>
    have hmaps : MapsAt Found (view held nextPage content)
        ((reader L content answers).search times getTime L.granulepos target
          (d.interval L content times getTime target))
        ((PageView.reader L nextPage content).search times getTime L.granulepos target
          (d.interval L content times getTime target)) d :=
      (alike_reader h).maps_search _ d hfound
    rw [hmaps.ends_iff]
    constructor
    · rintro ⟨⟨hsize, hposition⟩, hcovered⟩
      exact Reader.search_ends (interval_small hsize hposition) hcovered
    · exact covered_of_ends
  | false =>
    by_cases hwide : (d.interval L content times getTime target).Wide
    · obtain ⟨hheld, -⟩ := h.pageseek (L.syncReset d.sync) d.page (h.reset d.sync)
      have hahead : ahead held content ((reader L content answers).restart
          ⌊(d.interval L content times getTime target).pos⌋₊ d) =
          content.bytes.drop ⌊(d.interval L content times getTime target).pos⌋₊ := by
        simp only [ahead, reader, resync, hheld, List.nil_append]
      have hstream : ((reader L content answers).restart
          ⌊(d.interval L content times getTime target).pos⌋₊ d).streamInited = false := hfound
      rw [search_ends_iff h hfound hwide, readPage_ends_iff h hstream, hahead]
      exact ⟨fun hs => hs.2 hwide, fun hs _ => hs⟩
    · refine ⟨fun _ => ?_, fun _ hnot => absurd hnot hwide⟩
      refine ends_of_result (r := (.ok (), d)) ?_
      rw [Reader.search, repeatM_result, Reader.pass, if_neg hwide, result_pure]

theorem rewound_ends_iff (h : OggContract L held nextPage)
    (d : OggDemuxer Sync Stream Page Packet) :
    (readPacket L content answers true).Ends ((reader L content answers).restart 0 d) ↔
      (Found d → (PageView.readPacket L true).Ends
        ((PageView.reader L nextPage content).restart 0 (view held nextPage content d))) := by
  have halike : Reader.Alike Found (view held nextPage content) (reader L content answers)
    (PageView.reader L nextPage content) := alike_reader h
  rw [readPacket_ends_iff h]
  refine imp_congr_right fun hd => ?_
  rw [(halike.restart 0 d hd).1]

theorem seek_ends {getTime : Int → Time} {target : Time}
    (d : OggDemuxer Sync Stream Page Packet) :
    (seek L content answers times getTime target).Ends d ↔
      if times.rewind target then
        (readPacket L content answers true).Ends
          ((reader L content answers).restart 0 { d with eos := false })
      else
        ((reader L content answers).search times getTime L.granulepos target
          ({ d with eos := false }.interval L content times getTime target)).Ends
            { d with eos := false } := by
  have hpure : ∀ (b : Bool) (t : OggDemuxer Sync Stream Page Packet),
      (pure b : Demux Sync Stream Page Packet Bool).Ends t :=
    fun b t => ends_of_result (result_pure b t)
  rw [seek, ends_modify_bind]
  by_cases hrewind : times.rewind target = true
  · rw [if_pos hrewind, if_pos hrewind, ends_modify_bind,
      ends_bind_iff fun _ => hpure true]
  · rw [if_neg hrewind, if_neg hrewind, ends_get_bind,
      ends_bind_iff fun _ => hpure true]

/-- **One call**: it ends if it is supplied, and only then; a search in a file that is
not too large. -/
theorem call_ends (h : OggContract L held nextPage) (d : OggDemuxer Sync Stream Page Packet)
    (c : Call Packet Time) :
    (Small content d c ∧ Supplied L held nextPage content times d c →
      (call L content answers times c).Ends d) ∧
    ((call L content answers times c).Ends d → Supplied L held nextPage content times d c) := by
  have hpure : ∀ (u : Unit) (t : OggDemuxer Sync Stream Page Packet),
      (pure u : Demux Sync Stream Page Packet Unit).Ends t :=
    fun u t => ends_of_result (result_pure u t)
  cases c with
  | findStream =>
    exact ⟨fun _ => (ends_bind_iff fun _ => hpure ()).mpr (findStream_ends h d),
      fun _ => trivial⟩
  | readPacket packet mustSucceed =>
    have hiff : (call L content answers times (.readPacket packet mustSucceed)).Ends d ↔
        Supplied L held nextPage content times d (.readPacket packet mustSucceed) := by
      refine ends_modify_bind.trans ((ends_bind_iff fun _ => hpure ()).trans ?_)
      exact readPacket_ends_iff h mustSucceed { d with packet }
    exact ⟨fun hs => hiff.mpr hs.2, hiff.mp⟩
  | resync => exact ⟨fun _ => ends_of_result (result_modify _ d), fun _ => trivial⟩
  | seek packet target getTime =>
    have hends : (call L content answers times (.seek packet target getTime)).Ends d ↔
        (seek L content answers times getTime target).Ends { d with packet } :=
      ends_modify_bind.trans (ends_bind_iff fun _ => hpure ())
    rw [hends, seek_ends, Supplied]
    by_cases hrewind : times.rewind target = true
    · rw [if_pos hrewind, if_pos hrewind]
      have hiff := @rewound_ends_iff _ _ _ _ L held nextPage content answers h
        { d with packet, eos := false }
      exact ⟨fun hs => hiff.mpr hs.2, hiff.mp⟩
    · rw [if_neg hrewind, if_neg hrewind]
      obtain ⟨hto, hback⟩ := @searches_ends _ _ _ _ _ L held nextPage content answers times h
        getTime target { d with packet, eos := false }
      exact ⟨fun ⟨hsmall, hs⟩ => hto ⟨hsmall, hs⟩, hback⟩
  | isEos => exact ⟨fun _ => hpure () d, fun _ => trivial⟩

/-! ### Calls in turn -/

theorem Along.mono {C C' : OggDemuxer Sync Stream Page Packet → Call Packet Time → Prop}
    (hC : ∀ d c, C d c → C' d c) {calls : List (Call Packet Time)}
    {d : OggDemuxer Sync Stream Page Packet} (h : Along L content answers times C d calls) :
    Along L content answers times C' d calls := by
  induction calls generalizing d with
  | nil => trivial
  | cons c calls ih => exact ⟨hC d c h.1, fun r t hr => ih (h.2 r t hr)⟩

/-- **Calls in any order** end if each of them is supplied in the state that it is made in,
and searches are made in files that are not too large; and if they end, they were. -/
theorem calls_end (h : OggContract L held nextPage) (d : OggDemuxer Sync Stream Page Packet)
    (calls : List (Call Packet Time)) :
    (Along L content answers times
        (fun d c => Small content d c ∧ Supplied L held nextPage content times d c) d calls →
      Along L content answers times (fun d c => (call L content answers times c).Ends d) d calls) ∧
    (Along L content answers times (fun d c => (call L content answers times c).Ends d) d calls →
      Along L content answers times (Supplied L held nextPage content times) d calls) :=
  ⟨.mono fun d c => (call_ends h d c).1, .mono fun d c => (call_ends h d c).2⟩

end OggDemuxer

end Calls

/-! ## Packets in turn -/

section Packets

variable {Sync Stream Page Packet : Type} {L : LibOgg Sync Stream Page Packet}
  {held : Sync → List Byte} {nextPage : List Byte → Option (Page × List Byte)}
  {content content' : FileContent} {answers answers' : Nat → Nat}

namespace OggDemuxer

variable (L content answers) in
/-- The answers and the packets of `readPacket` calls in turn, up to one without end. -/
noncomputable def packetsRead :
    List Bool → OggDemuxer Sync Stream Page Packet → List (Option (Except String Bool × Packet))
  | [], _ => []
  | mustSucceed :: calls, d =>
    match (readPacket L content answers mustSucceed).result d with
    | none => [none]
    | some (r, t) => some (r, t.packet) :: packetsRead calls t

end OggDemuxer

end Packets

/-! ## A file of one page -/

/-- The first page of a video, with the first bytes of its header. -/
def onePage : List Byte :=
  [0x4F, 0x67, 0x67, 0x53, 0x00, 0x02, 0x00, 0x00, 0x00, 0x00, 0x00, 0x00, 0x00, 0x00, 0x01, 0x00,
   0x00, 0x00, 0x00, 0x00, 0x00, 0x00, 0x95, 0x19, 0x5E, 0x8B, 0x01, 0x07, 0x80, 0x74, 0x68, 0x65,
   0x6F, 0x72, 0x61]

/-- libogg on files of which that is the only page: a stream has packets, or is none. -/
def oneOgg : LibOgg (List Byte) (Option Nat) Unit Unit where
  pageout sync := if onePage <+: sync then (.page (), sync.drop 35) else (.needMore, sync)
  wrote := (· ++ ·)
  syncReset _ := []
  pageseek sync page := (sync, page)
  streamInit _ _ := some 0
  streamClear _ := none
  streamReset stream := stream.map fun _ => 0
  streamCheck := Option.isSome
  pagein stream _ := stream.map (· + 1)
  packetout
    | some (n + 1) => (some (), some n)
    | stream => (none, stream)
  packetpeek
    | some (n + 1) => (some (), some (n + 1))
    | stream => (none, stream)
  serialno _ := 1
  bos _ := true
  eos _ := false
  packets _ := 1
  granulepos _ := 0
  data _ := onePage.drop 28

def oneNext (bytes : List Byte) : Option (Unit × List Byte) :=
  if onePage <+: bytes then some ((), bytes.drop 35) else none

theorem pageOgg_contract {page : List Byte} (hpos : 0 < page.length)
    {L : LibOgg (List Byte) (Option Nat) Unit Unit}
    {next : List Byte → Option (Unit × List Byte)}
    (hpageout : ∀ sync, L.pageout sync =
      if page <+: sync then (.page (), sync.drop page.length) else (.needMore, sync))
    (hwrote : ∀ sync bytes, L.wrote sync bytes = sync ++ bytes)
    (hreset : ∀ sync, L.syncReset sync = [])
    (hpageseek : ∀ sync page, L.pageseek sync page = (sync, page))
    (hnext : ∀ bytes, next bytes =
      if page <+: bytes then some ((), bytes.drop page.length) else none) :
    OggContract L id next where
  wrote := hwrote
  reset := hreset
  pageseek sync page h := by
    rw [hpageseek]
    exact ⟨h, rfl⟩
  page sync sync' _ h := by
    rw [hpageout] at h
    split_ifs at h with hpage
    · cases h
      exact (hnext _).trans (if_pos hpage)
    · cases h
  needMore sync sync' h := by
    rw [hpageout] at h
    split_ifs at h with hpage
    · cases h
    · cases h
      exact ⟨(hnext _).trans (if_neg hpage), le_rfl, fun _ => rfl⟩
  lostSync sync sync' h := by
    rw [hpageout] at h
    split_ifs at h <;> cases h
  shorter bytes _ rest h := by
    rw [hnext] at h
    split_ifs at h with hpage
    cases h
    rw [List.length_drop]
    exact Nat.sub_lt (hpos.trans_le hpage.length_le) hpos
  append bytes _ rest more h := by
    rw [hnext] at h ⊢
    split_ifs at h with hpage
    cases h
    rw [if_pos (hpage.trans (List.prefix_append _ _)),
      List.drop_append_of_le_length hpage.length_le]

theorem oneOgg_contract : OggContract oneOgg id oneNext :=
  pageOgg_contract (by decide) (fun _ => rfl) (fun _ _ => rfl) (fun _ => rfl) (fun _ _ => rfl)
    fun _ => rfl

def oneFile : FileContent := ⟨onePage, by decide⟩

/-- All times are at the start. -/
def noTimes : Times Unit := ⟨fun _ _ => false, fun _ _ => false, fun _ => false, fun _ => true⟩

/-- A demuxer for the file, before and after `findStream`. -/
def fresh : OggDemuxer (List Byte) (Option Nat) Unit Unit :=
  ⟨0, 0, [], none, (), false, 0, false, ()⟩

def opened : OggDemuxer (List Byte) (Option Nat) Unit Unit :=
  ⟨35, 1, [], some 1, (), true, 1, false, ()⟩

open OggDemuxer

theorem fresh_findStream :
    (call oneOgg oneFile (fun _ => 8192) noTimes .findStream).result fresh =
      some (.ok (), opened) :=
  result_of_run (n := 2) (by decide +kernel)

theorem calls_end_opened :
    Along oneOgg oneFile (fun _ => 8192) noTimes
      (fun d c => (call oneOgg oneFile (fun _ => 8192) noTimes c).Ends d) fresh
      [.findStream, .readPacket () true] := by
  refine (calls_end oneOgg_contract fresh _).1 ⟨⟨trivial, trivial⟩, fun r t hr => ?_⟩
  rw [fresh_findStream] at hr
  cases hr
  exact ⟨⟨trivial, fun _ => ⟨0, rfl⟩⟩, fun _ _ _ => trivial⟩

theorem opened_readPacket :
    (call oneOgg oneFile (fun _ => 8192) noTimes (.readPacket () false)).result opened =
      some (.ok (), { opened with stream := some 0 }) :=
  result_of_run (n := 2) (by decide +kernel)

/-- After the last packet of a file that is cut off, the demuxer looks for a page for ever. -/
theorem not_always_end :
    ¬ ∀ (content : FileContent) (answers : Nat → Nat) (calls : List (Call Unit Unit)),
      Along oneOgg content answers noTimes
        (fun d c => (call oneOgg content answers noTimes c).Ends d) fresh calls := by
  intro h
  have hall := h oneFile (fun _ => 8192) [.findStream, .readPacket () false, .readPacket () false]
  have hsecond := hall.2 _ _ fresh_findStream
  have hends := (hsecond.2 _ _ opened_readPacket).1
  obtain ⟨n, hn⟩ := (call_ends oneOgg_contract _ _).2 hends rfl
  exact absurd hn Bool.false_ne_true

end Lhatove.Video
