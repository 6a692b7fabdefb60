import Lhatove.Video.OggDemuxer

/-!
# The demuxer and the pages of its file

What is relied on of libogg, and what the demuxer reads then: the pages that are still to
come out of the bytes that libogg holds and the rest of the file.

- `OggContract`: a page comes out when its bytes have been written, and once.
- `PageView`: a demuxer with the pages ahead in place of the bytes. Reading takes a page
  off a list, and has no result when there is none.
- `maps_readPage`, `maps_readPacket`: the loops of the demuxer do that.
-/

namespace Lhatove.Video

open Filesystem (FileContent ioRead)
open LoopM (Maps MapsAt repeatM)
open LoopM

section Pages

variable {Sync Stream Page Packet : Type} (L : LibOgg Sync Stream Page Packet)

/-- What is relied on of libogg: `held` are the bytes written and not yet given out, and
`nextPage` is the first page in some bytes, with the bytes behind it. -/
structure OggContract (held : Sync → List Byte)
    (nextPage : List Byte → Option (Page × List Byte)) : Prop where
  wrote : ∀ sync bytes, held (L.wrote sync bytes) = held sync ++ bytes
  reset : ∀ sync, held (L.syncReset sync) = []
  pageseek : ∀ sync page, held sync = [] →
    held (L.pageseek sync page).1 = [] ∧ (L.pageseek sync page).2 = page
  page : ∀ sync sync' page, L.pageout sync = (.page page, sync') →
    nextPage (held sync) = some (page, held sync')
  needMore : ∀ sync sync', L.pageout sync = (.needMore, sync') →
    nextPage (held sync) = none ∧ (held sync').length ≤ (held sync).length ∧
      ∀ more, nextPage (held sync' ++ more) = nextPage (held sync ++ more)
  lostSync : ∀ sync sync', L.pageout sync = (.lostSync, sync') →
    (held sync').length < (held sync).length ∧
      ∀ more, nextPage (held sync' ++ more) = nextPage (held sync ++ more)
  shorter : ∀ bytes page rest, nextPage bytes = some (page, rest) → rest.length < bytes.length
  append : ∀ bytes page rest more, nextPage bytes = some (page, rest) →
    nextPage (bytes ++ more) = some (page, rest ++ more)

/-- The pages in some bytes, but at most a number of them. -/
def firstPages (nextPage : List Byte → Option (Page × List Byte)) : Nat → List Byte → List Page
  | 0, _ => []
  | n + 1, bytes =>
    match nextPage bytes with
    | none => []
    | some (page, rest) => page :: firstPages nextPage n rest

/-- The pages in some bytes. -/
def pages (nextPage : List Byte → Option (Page × List Byte)) (bytes : List Byte) : List Page :=
  firstPages nextPage bytes.length bytes

variable {L} {held : Sync → List Byte} {nextPage : List Byte → Option (Page × List Byte)}

namespace OggContract

theorem firstPages_eq (h : OggContract L held nextPage) {n : Nat} {bytes : List Byte}
    (hn : bytes.length ≤ n) : firstPages nextPage n bytes = pages nextPage bytes := by
  induction n using Nat.strong_induction_on generalizing bytes with
  | _ n ih =>
    rcases hn.eq_or_lt with heq | hlt
    · rw [pages, heq]
    · obtain ⟨n, rfl⟩ : ∃ m, n = m + 1 := ⟨n - 1, by omega⟩
      rw [← ih n n.lt_succ_self (Nat.le_of_lt_succ hlt)]
      cases n with
      | zero =>
        have hnil : bytes = [] := List.eq_nil_of_length_eq_zero (by omega)
        unfold firstPages
        split
        · rfl
        · next hnext => exact absurd (h.shorter _ _ _ hnext) (by simp [hnil])
      | succ n =>
        rw [firstPages, firstPages]
        split
        · rfl
        · next page rest hnext =>
          have hshort := h.shorter _ _ _ hnext
          rw [ih (n + 1) (by omega) (by omega), ih n (by omega) (by omega)]

theorem pages_nil (h : OggContract L held nextPage) {bytes : List Byte} :
    pages nextPage bytes = [] ↔ nextPage bytes = none := by
  rw [← h.firstPages_eq (Nat.le_succ bytes.length), firstPages]
  split
  · next hnext => exact iff_of_true rfl hnext
  · next hnext => exact iff_of_false (List.cons_ne_nil _ _) (by rw [hnext]; exact nofun)

theorem pages_cons (h : OggContract L held nextPage) {bytes rest : List Byte} {page : Page}
    (hnext : nextPage bytes = some (page, rest)) :
    pages nextPage bytes = page :: pages nextPage rest := by
  rw [← h.firstPages_eq (Nat.le_succ bytes.length), firstPages, hnext]
  have hshort := h.shorter _ _ _ hnext
  exact congrArg _ (h.firstPages_eq (by omega))

end OggContract

/-! ## Views -/

/-- A demuxer whose stream has been found, with the pages that are ahead of it. -/
structure PageView (Stream Page Packet : Type) where
  pages : List Page
  stream : Stream
  page : Page
  videoSerial : Int
  eos : Bool
  packet : Packet

namespace PageView

/-- A function of such a demuxer; no result when the pages run out. -/
abbrev Reads (Stream Page Packet α : Type) := LoopM String (PageView Stream Page Packet) α

/-- The next page. -/
def readPage : Reads Stream Page Packet Unit where
  run _ v :=
    match v.pages with
    | [] => none
    | page :: pages => some (.ok (), { v with pages, page })
  mono _ _ _ h := h

variable (L)

/-- The page is the last one of the stream, and the caller can do without a packet. -/
def atEnd (mustSucceed : Bool) (v : PageView Stream Page Packet) : Bool :=
  L.serialno v.page == v.videoSerial && L.eos v.page && !mustSucceed

/-- A packet, if there is one without another page. -/
def packetOf (v : PageView Stream Page Packet) :
    Option (PageView Stream Page Packet) × PageView Stream Page Packet :=
  match L.packetout v.stream with
  | (some packet, stream) => (some { v with stream, packet, eos := false }, { v with stream })
  | (none, stream) => (none, { v with stream })

/-- Pages are read until one of the video stream makes a packet whole, or the stream ends.
The list is that of the pages ahead. -/
def packetFrom (mustSucceed : Bool) :
    List Page → PageView Stream Page Packet → Option (Bool × PageView Stream Page Packet)
  | [], v => if v.atEnd L mustSucceed then some (true, { v with eos := true }) else none
  | page :: pages, v =>
    if v.atEnd L mustSucceed then some (true, { v with eos := true })
    else if L.serialno page ≠ v.videoSerial then packetFrom mustSucceed pages { v with pages, page }
    else
      match packetOf L { v with pages, page, stream := L.pagein v.stream page } with
      | (some v, _) => some (false, v)
      | (none, v) => packetFrom mustSucceed pages v

/-- The next packet that takes another page. -/
def nextPacket (mustSucceed : Bool) : Reads Stream Page Packet Bool where
  run _ v := (packetFrom L mustSucceed v.pages v).map (Prod.map Except.ok id)
  mono _ _ _ h := h

theorem nextPacket_result (mustSucceed : Bool) (v : PageView Stream Page Packet) :
    (nextPacket L mustSucceed).result v =
      (packetFrom L mustSucceed v.pages v).map (Prod.map Except.ok id) :=
  result_of_forall fun _ => rfl

/-- The next packet. -/
def readPacket (mustSucceed : Bool) : Reads Stream Page Packet Bool := do
  let v ← LoopM.get
  match packetOf L v with
  | (some v, _) =>
    LoopM.set v
    return false
  | (none, v) =>
    LoopM.set v
    nextPacket L mustSucceed

theorem readPacket_result (mustSucceed : Bool) (v : PageView Stream Page Packet) :
    (readPacket L mustSucceed).result v =
      match packetOf L v with
      | (some v, _) => some (.ok false, v)
      | (none, v) => (nextPacket L mustSucceed).result v := by
  rw [readPacket, result_bind_ok (result_get v)]
  rcases packetOf L v with ⟨_ | w, u⟩
  · exact result_bind_ok (result_set v u)
  · exact (result_bind_ok (result_set v w)).trans (result_pure false w)

theorem packetOf_pages {v : PageView Stream Page Packet} : (packetOf L v).2.pages = v.pages := by
  rw [packetOf]
  rcases L.packetout v.stream with ⟨_ | _, _⟩ <;> rfl

end PageView

/-! ## Pages -/

namespace OggDemuxer

variable (held nextPage) (content : FileContent) (answers : Nat → Nat)

/-- The bytes that no page has come out of. -/
def ahead (d : OggDemuxer Sync Stream Page Packet) : List Byte :=
  held d.sync ++ content.bytes.drop d.position

/-- What is left to do with them: bytes of the file are still to be read, and then to be
given out. -/
def left (d : OggDemuxer Sync Stream Page Packet) : Nat :=
  2 * (content.bytes.drop d.position).length + (held d.sync).length

/-- What a turn of the loop of `readPage` leads to. -/
inductive PageTurn (L : LibOgg Sync Stream Page Packet) (erroreof syncBuffer : Bool)
    (d : OggDemuxer Sync Stream Page Packet) :
    Except String (Bool ⊕ Bool) → OggDemuxer Sync Stream Page Packet → Prop
  | page {page : Page} {sync : Sync} : nextPage (held d.sync) = some (page, held sync) →
      PageTurn L erroreof syncBuffer d (.ok (.inr true)) { d with sync, page }
  | invalid {sync : Sync} : syncBuffer = true → d.streamInited = false →
      L.streamCheck d.stream = false →
      PageTurn L erroreof syncBuffer d (.error "Invalid stream") { d with sync }
  | fileEnd {sync : Sync} {reads : Nat} : erroreof = true →
      PageTurn L erroreof syncBuffer d (.ok (.inr false)) { d with sync, reads }
  | more {sync : Sync} {position reads : Nat} :
      (syncBuffer = true → d.streamInited = true ∨ L.streamCheck d.stream = true) →
      nextPage (ahead held content { d with sync, position, reads }) =
        nextPage (ahead held content d) →
      left held content { d with sync, position, reads } < left held content d ∨
        erroreof = false ∧ nextPage (ahead held content d) = none →
      PageTurn L erroreof syncBuffer d (.ok (.inl true)) { d with sync, position, reads }

variable {held nextPage content answers}

theorem readBuffer_result (h : OggContract L held nextPage) (erroreof syncBuffer : Bool)
    {d : OggDemuxer Sync Stream Page Packet} {sync : Sync}
    (hsame : ∀ more, nextPage (held sync ++ more) = nextPage (held d.sync ++ more))
    (hless : (held sync).length < (held d.sync).length ∨
      (held sync).length ≤ (held d.sync).length ∧ nextPage (held d.sync) = none) :
    ∃ r d', (readBuffer L content answers erroreof syncBuffer { d with sync }).result d
        = some (r, d') ∧
      PageTurn held nextPage content L erroreof syncBuffer d r d' := by
  rw [readBuffer]
  have happend := @Filesystem.ioRead_append content d.position 8192 (answers d.reads)
  have hnil := @Filesystem.ioRead_eq_nil content d.position 8192 (answers d.reads) (by decide)
  dsimp only
  generalize ioRead content d.position 8192 (answers d.reads) = read at *
  split_ifs with hinvalid hend
  · simp only [Bool.and_eq_true, Bool.not_eq_true'] at hinvalid
    rw [result_bind_ok (result_set d _), result_throw]
    exact ⟨_, _, rfl, .invalid hinvalid.1.1 hinvalid.1.2 hinvalid.2⟩
  · rw [result_bind_ok (result_set d _), result_pure]
    exact ⟨_, _, rfl, .fileEnd (Bool.and_eq_true_iff.mp hend).2⟩
  · rw [result_bind_ok (result_set d _), result_pure]
    refine ⟨_, _, rfl, .more ?_ ?_ ?_⟩
    · intro hsync
      cases hinited : d.streamInited <;> simp_all
    · rw [ahead, h.wrote, List.append_assoc, happend]
      exact hsame _
    · have hlength := congrArg List.length happend
      rw [List.length_append] at hlength
      simp only [left, h.wrote, List.length_append]
      by_cases hread : read = []
      · rcases hless with hless | ⟨hless, hnone⟩
        · left
          omega
        · -- the file has ended, and the bytes held are all that is ahead
          right
          refine ⟨by cases erroreof <;> simp_all, ?_⟩
          rw [ahead, hnil hread, List.append_nil]
          exact hnone
      · have hpos := List.length_pos_iff.mpr hread
        left
        omega

theorem readPageTurn_result (h : OggContract L held nextPage) (erroreof syncBuffer : Bool)
    (d : OggDemuxer Sync Stream Page Packet) :
    ∃ r d', (readPageTurn L content answers erroreof syncBuffer).result d = some (r, d') ∧
      PageTurn held nextPage content L erroreof syncBuffer d r d' := by
  rw [readPageTurn, result_bind_ok (result_get d)]
  rcases hout : L.pageout d.sync with ⟨page | _ | _, sync⟩
  · dsimp only
    rw [result_bind_ok (result_set d _), result_pure]
    exact ⟨_, _, rfl, .page (h.page _ _ _ hout)⟩
  · obtain ⟨hnone, hle, hsame⟩ := h.needMore _ _ hout
    exact readBuffer_result h erroreof syncBuffer hsame (.inr ⟨hle, hnone⟩)
  · obtain ⟨hlt, hsame⟩ := h.lostSync _ _ hout
    exact readBuffer_result h erroreof syncBuffer hsame (.inl hlt)

theorem ahead_page (h : OggContract L held nextPage) {d : OggDemuxer Sync Stream Page Packet}
    {page : Page} {sync : Sync} (hpage : nextPage (held d.sync) = some (page, held sync)) :
    nextPage (ahead held content d) =
      some (page, ahead held content { d with sync, page }) :=
  h.append _ _ _ _ hpage

/-- A demuxer that has read of its file since, and nothing else. -/
def ReadOn (d e : OggDemuxer Sync Stream Page Packet) : Prop :=
  e = { d with sync := e.sync, position := e.position, reads := e.reads }

section

variable (h : OggContract L held nextPage) {d : OggDemuxer Sync Stream Page Packet}
include h

theorem readPage_some (hstream : d.streamInited = true ∨ L.streamCheck d.stream = true)
    {page : Page} {rest : List Byte} (hnext : nextPage (ahead held content d) = some (page, rest)) :
    ∃ d', (readPage L content answers false).result d = some (.ok true, d') ∧
      ahead held content d' = rest ∧ ReadOn { d with page } d' := by
  have hturn : ∀ b e, (nextPage (ahead held content e) = some (page, rest) ∧ ReadOn d e) →
      ∃ r t, (readPageTurn L content answers false b).result e = some (r, t) ∧
        LoopM.Leads (fun _ t => (nextPage (ahead held content t) = some (page, rest) ∧ ReadOn d t) ∧
          left held content t < left held content e)
          (fun r t => r = .ok true ∧ ahead held content t = rest ∧ ReadOn { d with page } t) r t := by
    rintro b e ⟨hnext, hsame⟩
    obtain ⟨r, e', hr, hturn⟩ := readPageTurn_result h false b e
    refine ⟨r, e', hr, ?_⟩
    cases hturn with
    | page hpage =>
      rw [ahead_page h hpage] at hnext
      cases hnext
      refine ⟨rfl, rfl, ?_⟩
      rw [hsame]
      rfl
    | invalid _ hinited hcheck =>
      rw [hsame] at hinited hcheck
      rcases hstream with hstream | hstream
      · rw [show d.streamInited = false from hinited] at hstream
        cases hstream
      · rw [show L.streamCheck d.stream = false from hcheck] at hstream
        cases hstream
    | fileEnd hfalse => cases hfalse
    | more _ hkept hless =>
      refine ⟨⟨hkept.trans hnext, ?_⟩, ?_⟩
      · rw [hsame]
        rfl
      · rcases hless with hless | ⟨_, hnone⟩
        · exact hless
        · rw [hnext] at hnone
          cases hnone
  obtain ⟨r, d', hr, rfl, hahead, hsame⟩ :=
    repeatM_ends (fun _ => left held content) hturn ⟨hnext, rfl⟩
  exact ⟨d', hr, hahead, hsame⟩

/-- Without a page ahead, `readPage` goes on and on: it makes no use of the file's end. -/
theorem readPage_none (hstream : d.streamInited = true ∨ L.streamCheck d.stream = true)
    (hnext : nextPage (ahead held content d) = none) :
    (readPage L content answers false).result d = none := by
  have hturn : ∀ b e, (nextPage (ahead held content e) = none ∧ ReadOn d e) →
      ∀ r t, (readPageTurn L content answers false b).result e = some (r, t) →
        LoopM.Leads (fun _ t => nextPage (ahead held content t) = none ∧ ReadOn d t)
          (fun _ _ => False) r t := by
    rintro b e ⟨hnext, hsame⟩ r e' hr
    obtain ⟨r', e'', hr', hturn⟩ := @readPageTurn_result _ _ _ _ _ _ _ content answers h false b e
    rw [hr] at hr'
    cases hr'
    cases hturn with
    | page hpage =>
      rw [ahead_page h hpage] at hnext
      cases hnext
    | invalid _ hinited hcheck =>
      rw [hsame] at hinited hcheck
      rcases hstream with hstream | hstream
      · rw [show d.streamInited = false from hinited] at hstream
        cases hstream
      · rw [show L.streamCheck d.stream = false from hcheck] at hstream
        cases hstream
    | fileEnd hfalse => cases hfalse
    | more _ hkept _ =>
      refine ⟨hkept.trans hnext, ?_⟩
      rw [hsame]
      rfl
  exact repeatM_never hturn ⟨hnext, rfl⟩

theorem readPage_invalid (hinited : d.streamInited = false)
    (hcheck : L.streamCheck d.stream = false) : (readPage L content answers false).Ends d := by
  have hturn : ∀ b e, ReadOn d e →
      ∃ r t, (readPageTurn L content answers false b).result e = some (r, t) ∧
        LoopM.Leads (fun b' t => ReadOn d t ∧ (if b' = true then 0 else 1) <
          (if b = true then 0 else 1)) (fun _ _ => True) r t := by
    intro b e hsame
    obtain ⟨r, e', hr, hturn⟩ := readPageTurn_result h false b e
    refine ⟨r, e', hr, ?_⟩
    cases hturn with
    | page | invalid | fileEnd => trivial
    | more hsync =>
      constructor
      · rw [hsame]
        rfl
      · cases b with
        | false => exact Nat.zero_lt_one
        | true =>
          rw [hsame] at hsync
          rcases hsync rfl with hstream | hstream
          · rw [show d.streamInited = true from hstream] at hinited
            cases hinited
          · rw [show L.streamCheck d.stream = true from hstream] at hcheck
            cases hcheck
  obtain ⟨r, d', hr, -⟩ :=
    repeatM_ends (fun b _ => if b = true then 0 else 1) hturn (s := d) rfl
  exact ends_iff.mpr ⟨_, hr⟩

end

theorem readPage_inited (h : OggContract L held nextPage) {erroreof b : Bool}
    {d d' : OggDemuxer Sync Stream Page Packet} (hd : d.streamInited = b)
    {r : Except String Bool} (hr : (readPage L content answers erroreof).result d = some (r, d')) :
    d'.streamInited = b := by
  refine repeatM_keeps (P := fun e => e.streamInited = b)
    (fun syncBuffer e he r t ht => ?_) hd hr
  obtain ⟨r', t', ht', hturn⟩ :=
    @readPageTurn_result _ _ _ _ _ _ _ content answers h erroreof syncBuffer e
  rw [ht] at ht'
  cases ht'
  cases hturn <;> exact he

/-- A call that may find the end of the file ends, and a page that it reads is used up. -/
theorem readPage_true (h : OggContract L held nextPage) (d : OggDemuxer Sync Stream Page Packet) :
    ∃ r d', (readPage L content answers true).result d = some (r, d') ∧
      (r = .ok true → (ahead held content d').length < (ahead held content d).length) := by
  have hturn : ∀ b e, nextPage (ahead held content e) = nextPage (ahead held content d) →
      ∃ r t, (readPageTurn L content answers true b).result e = some (r, t) ∧
        LoopM.Leads (fun _ t => nextPage (ahead held content t) = nextPage (ahead held content d) ∧
          left held content t < left held content e)
          (fun r t => r = .ok true → ∃ page, nextPage (ahead held content d) =
            some (page, ahead held content t)) r t := by
    intro b e he
    obtain ⟨r, e', hr, hturn⟩ := readPageTurn_result h true b e
    refine ⟨r, e', hr, ?_⟩
    cases hturn with
    | page hpage => exact fun _ => ⟨_, he.symm.trans (ahead_page h hpage)⟩
    | invalid | fileEnd => exact nofun
    | more _ hkept hless =>
      refine ⟨hkept.trans he, ?_⟩
      rcases hless with hless | ⟨hfalse, _⟩
      · exact hless
      · cases hfalse
  obtain ⟨r, d', hr, hused⟩ := repeatM_ends (fun _ => left held content) hturn rfl
  refine ⟨r, d', hr, fun hok => ?_⟩
  obtain ⟨page, hpage⟩ := hused hok
  exact h.shorter _ _ _ hpage

/-! ## What is read of the pages -/

variable (held nextPage content)

/-- The stream has been found. -/
def Found (d : OggDemuxer Sync Stream Page Packet) : Prop := d.streamInited = true

/-- A demuxer as its pages. -/
def view (d : OggDemuxer Sync Stream Page Packet) : PageView Stream Page Packet where
  pages := pages nextPage (ahead held content d)
  stream := d.stream
  page := d.page
  videoSerial := d.videoSerial
  eos := d.eos
  packet := d.packet

variable {held nextPage content}

theorem ReadOn.view {d d' : OggDemuxer Sync Stream Page Packet} {page : Page} {rest : List Byte}
    (h : ReadOn { d with page } d') (hahead : ahead held content d' = rest) :
    view held nextPage content d' =
      { view held nextPage content d with pages := pages nextPage rest, page } := by
  rw [OggDemuxer.view, hahead, h]
  rfl

theorem ReadOn.found {d d' : OggDemuxer Sync Stream Page Packet} {page : Page}
    (h : ReadOn { d with page } d') (hd : Found d) : Found d' := by
  rw [h]
  exact hd

theorem readPage_view (h : OggContract L held nextPage) {d : OggDemuxer Sync Stream Page Packet}
    (hd : Found d) :
    (pages nextPage (ahead held content d) = [] ∧
        (readPage L content answers false).result d = none) ∨
      ∃ page rest d', pages nextPage (ahead held content d) = page :: rest ∧
        (readPage L content answers false).result d = some (.ok true, d') ∧ Found d' ∧
        view held nextPage content d' =
          { view held nextPage content d with pages := rest, page } ∧ ReadOn { d with page } d' := by
  cases hnext : nextPage (ahead held content d) with
  | none => exact .inl ⟨h.pages_nil.mpr hnext, readPage_none h (.inl hd) hnext⟩
  | some next =>
    obtain ⟨page, rest⟩ := next
    obtain ⟨d', hr, hahead, hsame⟩ := @readPage_some _ _ _ _ _ _ _ _ answers h _ (.inl hd) _ _ hnext
    exact .inr ⟨page, _, d', h.pages_cons hnext, hr, hsame.found hd, hsame.view hahead, hsame⟩

/-- **A page** is taken off the pages ahead. -/
theorem maps_readPage (h : OggContract L held nextPage) :
    Maps Found (view held nextPage content) (reader L content answers).readPage
      PageView.readPage := by
  intro d hd
  rcases @readPage_view _ _ _ _ _ _ _ content answers h d hd with
    ⟨hpages, hr⟩ | ⟨page, rest, d', hpages, hr, hfound, hview, -⟩
  · have hnone := result_bind_none
      (f := fun _ => (pure () : Demux Sync Stream Page Packet Unit)) hr
    refine ⟨?_, fun r t hrt => ?_⟩
    · rw [show (reader L content answers).readPage.result d = none from hnone]
      refine result_of_forall fun n => ?_
      simp only [PageView.readPage, view, hpages]
      rfl
    · rw [show (reader L content answers).readPage.result d = none from hnone] at hrt
      cases hrt
  · have hsome := result_bind_ok
      (f := fun _ => (pure () : Demux Sync Stream Page Packet Unit)) hr
    rw [result_pure] at hsome
    refine ⟨?_, fun r t hrt => ?_⟩
    · rw [show (reader L content answers).readPage.result d = _ from hsome]
      refine result_of_forall fun n => ?_
      show _ = some (Except.ok (), view held nextPage content d')
      rw [hview]
      simp only [PageView.readPage, view, hpages]
    · rw [show (reader L content answers).readPage.result d = _ from hsome] at hrt
      cases hrt
      exact hfound

variable (L content answers) in
/-- What follows in `readPacket` when the stream has no packet. -/
def morePages (mustSucceed : Bool) : Demux Sync Stream Page Packet Bool := do
  if ← nextVideoPage L content answers mustSucceed then return true
  else
    LoopM.modify fun d => { d with stream := L.pagein d.stream d.page }
    packetLoop L content answers mustSucceed

theorem packetLoop_result (mustSucceed : Bool) (d : OggDemuxer Sync Stream Page Packet) :
    (packetLoop L content answers mustSucceed).result d =
      match L.packetout d.stream with
      | (some packet, stream) => some (.ok false, { d with stream, packet, eos := false })
      | (none, stream) => (morePages L content answers mustSucceed).result { d with stream } := by
  have hturn : (packetTurn L content answers mustSucceed).result d =
      match L.packetout d.stream with
      | (some packet, stream) => some (.ok (.inr false), { d with stream, packet, eos := false })
      | (none, stream) => (do
        if ← nextVideoPage L content answers mustSucceed then return .inr true
        else
          modify fun d => { d with stream := L.pagein d.stream d.page }
          return .inl () : Demux Sync Stream Page Packet (Unit ⊕ Bool)).result { d with stream } := by
    rw [packetTurn, result_bind_ok (result_get d)]
    rcases L.packetout d.stream with ⟨_ | packet, stream⟩
    · exact result_bind_ok (result_set d _)
    · dsimp only
      rw [result_bind_ok (result_set d _), result_pure]
  rw [packetLoop, repeatM_result, hturn]
  rcases L.packetout d.stream with ⟨_ | packet, stream⟩
  · dsimp only
    rw [morePages, result_bind, result_bind]
    rcases (nextVideoPage L content answers mustSucceed).result { d with stream } with
      _ | ⟨_ | ⟨_ | _⟩, t⟩
    · rfl
    · rfl
    · simp only [Bool.false_eq_true, if_false]
      rw [result_bind_ok (result_modify _ t),
        result_bind_ok (result_modify _ t), result_pure]
      rfl
    · simp
  · rfl

theorem morePages_result (mustSucceed : Bool) (d : OggDemuxer Sync Stream Page Packet) :
    (morePages L content answers mustSucceed).result d =
      if d.atEnd L mustSucceed then some (.ok true, { d with eos := true })
      else
        match (readPage L content answers false).result d with
        | none => none
        | some (.error e, t) => some (.error e, t)
        | some (.ok _, t) =>
          if L.serialno t.page ≠ t.videoSerial then
            (morePages L content answers mustSucceed).result t
          else
            (packetLoop L content answers mustSucceed).result
              { t with stream := L.pagein t.stream t.page } := by
  have hturn : (videoPageTurn L content answers mustSucceed).result d =
      if d.atEnd L mustSucceed then some (.ok (.inr true), { d with eos := true })
      else
        match (readPage L content answers false).result d with
        | none => none
        | some (.error e, t) => some (.error e, t)
        | some (.ok _, t) =>
          some (.ok (if L.serialno t.page ≠ t.videoSerial then .inl () else .inr false), t) := by
    rw [videoPageTurn, result_bind_ok (result_get d)]
    split_ifs with hend
    · rw [result_bind_ok (result_set d _), result_pure]
    · rw [result_bind]
      rcases (readPage L content answers false).result d with _ | ⟨_ | _, t⟩
      · rfl
      · rfl
      · dsimp only
        rw [result_bind_ok (result_get t)]
        split_ifs <;> rw [result_pure]
  rw [morePages, result_bind, nextVideoPage, repeatM_result, hturn]
  split_ifs with hend
  · simp
  · rcases (readPage L content answers false).result d with _ | ⟨_ | _, t⟩
    · rfl
    · rfl
    · dsimp only
      split_ifs with hserial
      · exact (result_bind ..).symm
      · simp only [Bool.false_eq_true, if_false]
        rw [result_bind_ok (result_modify _ t)]

/-- A packet, if what follows without one is known. -/
theorem maps_packetLoop_of {mustSucceed : Bool} {d : OggDemuxer Sync Stream Page Packet}
    (hd : Found d)
    (hmore : ∀ stream, MapsAt Found (view held nextPage content)
      (morePages L content answers mustSucceed) (PageView.nextPacket L mustSucceed)
      { d with stream }) :
    MapsAt Found (view held nextPage content) (packetLoop L content answers mustSucceed)
      (PageView.readPacket L mustSucceed) d := by
  have hx := @packetLoop_result _ _ _ _ L content answers mustSucceed d
  have hy := PageView.readPacket_result L mustSucceed (view held nextPage content d)
  have hof : PageView.packetOf L (view held nextPage content d) =
      match L.packetout d.stream with
      | (some packet, stream) =>
        (some (view held nextPage content { d with stream, packet, eos := false }),
          view held nextPage content { d with stream })
      | (none, stream) => (none, view held nextPage content { d with stream }) := rfl
  rw [hof] at hy
  rcases hout : L.packetout d.stream with ⟨_ | packet, stream⟩ <;> rw [hout] at hx hy
  · exact (hmore stream).of_eq hx hy
  · exact .of_some hx hy hd

theorem maps_morePages (h : OggContract L held nextPage) (mustSucceed : Bool) :
    Maps Found (view held nextPage content) (morePages L content answers mustSucceed)
      (PageView.nextPacket L mustSucceed) := by
  -- by induction on the pages ahead
  have hall : ∀ ps d, Found d → pages nextPage (ahead held content d) = ps →
      MapsAt Found (view held nextPage content) (morePages L content answers mustSucceed)
        (PageView.nextPacket L mustSucceed) d := by
    intro ps
    induction ps with
    | nil =>
      intro d hd hps
      have hview := PageView.nextPacket_result L mustSucceed (view held nextPage content d)
      rw [show (view held nextPage content d).pages = [] from hps, PageView.packetFrom] at hview
      have hmore := @morePages_result _ _ _ _ L content answers mustSucceed d
      by_cases hend : d.atEnd L mustSucceed = true
      · rw [if_pos (show (view held nextPage content d).atEnd L mustSucceed = true from hend)]
          at hview
        rw [if_pos hend] at hmore
        exact .of_some hmore hview hd
      · rw [if_neg (show ¬ (view held nextPage content d).atEnd L mustSucceed = true from hend)]
          at hview
        rcases @readPage_view _ _ _ _ _ _ _ content answers h d hd with
          ⟨-, hr⟩ | ⟨page, rest, d', hpages, -⟩
        · rw [if_neg hend, hr] at hmore
          exact .of_none hmore hview
        · rw [hps] at hpages
          cases hpages
    | cons page ps ih =>
      intro d hd hps
      have hview := PageView.nextPacket_result L mustSucceed (view held nextPage content d)
      rw [show (view held nextPage content d).pages = page :: ps from hps, PageView.packetFrom]
        at hview
      have hmore := @morePages_result _ _ _ _ L content answers mustSucceed d
      by_cases hend : d.atEnd L mustSucceed = true
      · rw [if_pos (show (view held nextPage content d).atEnd L mustSucceed = true from hend)]
          at hview
        rw [if_pos hend] at hmore
        exact .of_some hmore hview hd
      · rw [if_neg (show ¬ (view held nextPage content d).atEnd L mustSucceed = true from hend)]
          at hview
        rcases @readPage_view _ _ _ _ _ _ _ content answers h d hd with
          ⟨hnil, -⟩ | ⟨page', rest, d', hpages, hr, hfound, hviewd, hon⟩
        · rw [hps] at hnil
          cases hnil
        · rw [hps] at hpages
          cases hpages
          have hpage : d'.page = page := by rw [hon]
          have hserial : d'.videoSerial = d.videoSerial := by rw [hon]
          have hps' : pages nextPage (ahead held content d') = ps :=
            congrArg PageView.pages hviewd
          rw [if_neg hend, hr] at hmore
          dsimp only at hmore
          by_cases hother : L.serialno page ≠ d.videoSerial
          · -- a page of another stream
            rw [hpage, hserial, if_pos hother] at hmore
            rw [if_pos (show L.serialno page ≠ (view held nextPage content d).videoSerial from hother),
              ← hviewd, ← hps', show pages nextPage (ahead held content d') =
                (view held nextPage content d').pages from rfl,
              ← PageView.nextPacket_result] at hview
            exact (ih d' hfound hps').of_eq hmore hview
          · rw [if_neg (by rw [hpage, hserial]; exact hother)] at hmore
            rw [if_neg (show ¬ L.serialno page ≠ (view held nextPage content d).videoSerial
              from hother)] at hview
            have hloop : MapsAt Found (view held nextPage content)
                (packetLoop L content answers mustSucceed) (PageView.readPacket L mustSucceed)
                { d' with stream := L.pagein d'.stream d'.page } :=
              maps_packetLoop_of hfound fun stream => ih { d' with stream } hfound hps'
            refine hloop.of_eq hmore (hview.trans ?_)
            have hv : ({ view held nextPage content d with
                  pages := ps
                  page
                  stream := L.pagein (view held nextPage content d).stream page } :
                  PageView Stream Page Packet) =
                view held nextPage content { d' with stream := L.pagein d'.stream d'.page } := by
              rw [show d'.stream = d.stream by rw [hon], ← hpage]
              rw [← hpage] at hviewd
              exact (congrArg (fun v : PageView Stream Page Packet =>
                { v with stream := L.pagein d.stream d'.page }) hviewd).symm
            rw [hv, PageView.readPacket_result]
            rcases hof : PageView.packetOf L (view held nextPage content
              { d' with stream := L.pagein d'.stream d'.page }) with ⟨_ | w, u⟩
            · have hpages : u.pages = ps := by
                have := @PageView.packetOf_pages _ _ _ _ L (view held nextPage content
                  { d' with stream := L.pagein d'.stream d'.page })
                rw [hof] at this
                exact this.trans hps'
              dsimp only
              rw [PageView.nextPacket_result, hpages]
            · rfl
  exact fun d hd => hall _ d hd rfl

/-- **A packet** is that of the pages ahead. -/
theorem maps_readPacket (h : OggContract L held nextPage) (mustSucceed : Bool) :
    Maps Found (view held nextPage content) (readPacket L content answers mustSucceed)
      (PageView.readPacket L mustSucceed) := by
  intro d hd
  have hloop : MapsAt Found (view held nextPage content)
      (packetLoop L content answers mustSucceed) (PageView.readPacket L mustSucceed) d :=
    maps_packetLoop_of hd fun stream => maps_morePages h mustSucceed { d with stream } hd
  refine hloop.of_eq ?_ rfl
  rw [readPacket, result_bind_ok (result_get d), show d.streamInited = true from hd]
  rfl

end OggDemuxer

end Pages

end Lhatove.Video
