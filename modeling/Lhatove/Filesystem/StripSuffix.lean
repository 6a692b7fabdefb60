import Lhatove.Filesystem.PhysfsIo
import Mathlib.Order.Bounds.Basic

/-!
# How exactly an archive is stripped of what is behind it

- `search_finds`: the search gets to the last signature that is within one of its chunks;
- `determineStrippedLength_determined`: the length that follows from it;
- `Family.positioned`: a duplicate has no length;
- `readsWithin_iff`: a read does not mind the length.
-/

namespace Lhatove.Filesystem.StripSuffixIo

open List
/-! ## What is found -/

section Found

variable {content : FileContent} {name : String} {length : Int}

/-- With its file open, at a position. -/
def positioned (name : String) (content : FileContent) (position : Nat) (length : Int) :
    StripSuffixIo := ⟨name, some (content, .unbuffered position), length⟩

theorem toInt_ofNat {n : Nat} (h : n < 2 ^ 63) : (BitVec.ofNat 64 n).toInt = n := by
  have hnat : (BitVec.ofNat 64 n).toNat = n := by
    rw [BitVec.toNat_ofNat]
    omega
  rw [BitVec.toInt_eq_toNat_of_lt (by omega), hnat]

theorem seek_positioned {offset position : Nat} (h : offset < 2 ^ 63) :
    (positioned name content position length).seek (.ofNat 64 offset) =
      some (1, .ok, positioned name content offset length) := by
  rw [seek, positioned]
  dsimp only
  rw [toInt_ofNat h, NativeFile.unbuffered_seek, ioSeek_start,
    if_pos ⟨Int.natCast_nonneg offset, by exact_mod_cast h⟩]
  rfl

/-- What there is to read at a position. -/
def ahead (content : FileContent) (position size : Nat) : List Byte :=
  (content.bytes.drop position).take size

theorem read_positioned {position size : Nat} (h : size < 2 ^ 63) :
    ∃ n : Int, ∃ code, (positioned name content position length).read (.ofNat 64 size) =
        some (n, ahead content position size, code,
          positioned name content (position + (ahead content position size).length) length) ∧
      (ahead content position size = [] → n ≤ 0) ∧
      (ahead content position size ≠ [] → n = (ahead content position size).length) := by
  have hnat : (BitVec.ofNat 64 size).toNat = size := by
    rw [BitVec.toNat_ofNat]
    omega
  rw [read, positioned]
  dsimp only
  rw [toInt_ofNat h, hnat, NativeFile.unbuffered_read]
  dsimp only
  rw [← ahead]
  by_cases hnil : ahead content position size = []
  · rw [hnil, length_nil, if_pos rfl]
    split_ifs
    · exact ⟨0, .ok, rfl, fun _ => le_rfl, fun h => absurd rfl h⟩
    · exact ⟨-1, .osError, rfl, fun _ => by omega, fun h => absurd rfl h⟩
  · have hlength := length_pos_iff.mpr hnil
    rw [if_neg (by omega)]
    exact ⟨_, .ok, rfl, fun h => absurd h hnil, fun _ => rfl⟩

/-- The places of the chunks from the one at `i` on. -/
def FromChunk (chunkSize i place : Nat) : Prop :=
  ∃ k, i - k * chunkSize ≤ place ∧ place + signature.length ≤ i - k * chunkSize + chunkSize

theorem fromChunk_iff {chunkSize i place : Nat} :
    FromChunk chunkSize i place ↔
      i ≤ place ∧ place + signature.length ≤ i + chunkSize ∨
        FromChunk chunkSize (i - chunkSize) place := by
  constructor
  · rintro ⟨k, hk⟩
    cases k with
    | zero =>
      rw [Nat.zero_mul, Nat.sub_zero] at hk
      exact .inl hk
    | succ k =>
      rw [Nat.succ_mul, Nat.add_comm, ← Nat.sub_sub] at hk
      exact .inr ⟨k, hk⟩
  · rintro (h | ⟨k, hk⟩)
    · refine ⟨0, ?_⟩
      rw [Nat.zero_mul, Nat.sub_zero]
      exact h
    · refine ⟨k + 1, ?_⟩
      rw [Nat.succ_mul, Nat.add_comm, ← Nat.sub_sub]
      exact hk

/-- The last signature that is in one of the chunks from the one at `i` on, or zero. -/
def Finds (content : FileContent) (chunkSize i place : Nat) : Prop :=
  IsGreatest { t | OccursAt signature content.bytes t ∧ FromChunk chunkSize i t } place ∨
    place = 0 ∧ ∀ t, OccursAt signature content.bytes t → ¬ FromChunk chunkSize i t

theorem signature_ne_nil : signature ≠ [] := cons_ne_nil _ _

theorem occursAt_ahead {i chunkSize t : Nat} :
    OccursAt signature (ahead content i chunkSize) t ↔
      OccursAt signature content.bytes (i + t) ∧ t + signature.length ≤ chunkSize :=
  occursAt_window signature_ne_nil

theorem finds_here {chunkSize i place : Nat}
    (h : rfind signature (ahead content i chunkSize) = some place) :
    Finds content chunkSize i (i + place) := by
  obtain ⟨hplace, hlast⟩ := (rfind_eq_some signature_ne_nil).mp h
  rw [occursAt_ahead] at hplace
  refine .inl ⟨⟨hplace.1, fromChunk_iff.mpr (.inl ⟨by omega, by omega⟩)⟩, ?_⟩
  rintro t ⟨ht, k, hfrom, hto⟩
  by_cases hbefore : t < i
  · omega
  · have hle := hlast (t - i)
      (occursAt_ahead.mpr ⟨by rwa [Nat.add_sub_cancel' (by omega)], by omega⟩)
    omega

theorem finds_before {chunkSize i place : Nat}
    (h : rfind signature (ahead content i chunkSize) = none)
    (hrest : Finds content chunkSize (i - chunkSize) place) : Finds content chunkSize i place := by
  have hnone := (rfind_eq_none signature_ne_nil).mp h
  have hmoved : ∀ t, OccursAt signature content.bytes t →
      (FromChunk chunkSize i t ↔ FromChunk chunkSize (i - chunkSize) t) := by
    intro t ht
    rw [fromChunk_iff]
    refine or_iff_right ?_
    rintro ⟨hfrom, hto⟩
    exact hnone (t - i) (occursAt_ahead.mpr ⟨by rwa [Nat.add_sub_cancel' hfrom], by omega⟩)
  rcases hrest with ⟨⟨hplace, hfrom⟩, hlast⟩ | ⟨hzero, hnowhere⟩
  · refine .inl ⟨⟨hplace, (hmoved place hplace).mpr hfrom⟩, ?_⟩
    rintro t ⟨ht, hfromt⟩
    exact hlast ⟨ht, (hmoved t ht).mp hfromt⟩
  · exact .inr ⟨hzero, fun t ht hfromt => hnowhere t ht ((hmoved t ht).mp hfromt)⟩

theorem finds_nothing {chunkSize : Nat}
    (h : rfind signature (ahead content 0 chunkSize) = none) : Finds content chunkSize 0 0 := by
  refine .inr ⟨rfl, ?_⟩
  rintro t ht ⟨k, hfrom, hto⟩
  refine (rfind_eq_none signature_ne_nil).mp h t (occursAt_ahead.mpr ⟨?_, by omega⟩)
  rwa [Nat.zero_add]

theorem search_finds {chunkSize i position : Nat} (hchunk : 0 < chunkSize)
    (hchunk' : chunkSize < 2 ^ 63) (hi : i < content.bytes.length) :
    ∃ place position', search chunkSize (positioned name content position length) i =
        some (some place, positioned name content position' length) ∧
      Finds content chunkSize i place := by
  induction i using Nat.strong_induction_on generalizing position with
  | _ i ih =>
    have hsize := content.size_lt
    obtain ⟨n, code, hread, -, hn⟩ := @read_positioned content name length i chunkSize hchunk'
    have hne : ahead content i chunkSize ≠ [] := by
      rw [← length_pos_iff, ahead, length_take, length_drop]
      omega
    have hpos := length_pos_iff.mpr hne
    rw [search, seek_positioned (by omega)]
    dsimp only
    rw [if_neg one_ne_zero]
    split
    · next hnone =>
      rw [hread] at hnone
      cases hnone
    · next _ _ _ _ hsome =>
      rw [hread] at hsome
      cases hsome
      rw [if_neg (by have := hn hne; omega)]
      cases hfind : rfind signature (ahead content i chunkSize) with
      | some place => exact ⟨_, _, rfl, finds_here hfind⟩
      | none =>
        dsimp only
        by_cases hzero : i = 0
        · rw [if_pos hzero]
          subst hzero
          exact ⟨0, _, rfl, finds_nothing hfind⟩
        · rw [if_neg hzero]
          obtain ⟨place, position', hsearch, hfinds⟩ := @ih (i - chunkSize) (by omega)
            (i + (ahead content i chunkSize).length) (by omega)
          exact ⟨place, position', hsearch, finds_before hfind hfinds⟩

/-! ## The length -/

/-- The chunks are of this size. -/
def chunkSize (content : FileContent) : Nat := min content.bytes.length 8192

/-- A place that the search comes across: the signature is within one of the chunks, which
are put next to each other from the end of the file on. -/
def InChunk (content : FileContent) (place : Nat) : Prop :=
  FromChunk (chunkSize content) (content.bytes.length - chunkSize content) place

/-- The last signature that is within a chunk. -/
def LastInChunks (content : FileContent) (place : Nat) : Prop :=
  IsGreatest { t | OccursAt signature content.bytes t ∧ InChunk content t } place

/-- The last signature. -/
def LastSignature (content : FileContent) (place : Nat) : Prop :=
  IsGreatest { t | OccursAt signature content.bytes t } place

/-- The end of the record at a place: it has 22 bytes, the last two of them the size of the
comment behind it. -/
def recordEnd (content : FileContent) (place : Nat) : Nat :=
  place + 22 + ((content.bytes.getD (place + 20) 0).toNat +
    2 ^ 8 * (content.bytes.getD (place + 21) 0).toNat)

/-- What `determineStrippedLength` makes of the file. -/
def Determined (content : FileContent) (ok : Bool) (length : Int) : Prop :=
  (content.bytes = [] ∧ ok = false ∧ length = -1) ∨
  (content.bytes ≠ [] ∧ (∀ t, 0 < t → ¬ LastInChunks content t) ∧ ok = true ∧
    length = content.bytes.length) ∨
  ∃ t, 0 < t ∧ LastInChunks content t ∧
    (content.bytes.length < recordEnd content t ∧ ok = false ∧ length = -1 ∨
      recordEnd content t ≤ content.bytes.length ∧ ok = true ∧ length = recordEnd content t)

theorem rewind_positioned (position : Nat) :
    rewind (positioned name content position length) =
      some (true, positioned name content 0 length) := by
  have hseek := @seek_positioned content name length 0 position (Nat.two_pow_pos 63)
  exact congrArg (Option.map _) hseek

theorem ahead_two_getD (position k : Nat) (hk : k < 2) :
    (ahead content position 2).getD k 0 = content.bytes.getD (position + k) 0 := by
  rw [ahead, getD_eq_getElem?_getD, getElem?_take, if_pos hk, getElem?_drop,
    getD_eq_getElem?_getD]

theorem shiftLeft_or_bytes (high low : Byte) :
    high.toNat <<< 8 ||| low.toNat = low.toNat + 2 ^ 8 * high.toNat := by
  rw [← Nat.shiftLeft_add_eq_or_of_lt low.isLt, Nat.shiftLeft_eq]
  ring

theorem search_empty :
    ∃ position, search 0 (positioned name content 0 length) 0 =
      some (none, positioned name content position length) := by
  have hnil : ahead content 0 0 = [] := take_zero
  obtain ⟨n, code, hread, hn, -⟩ := @read_positioned content name length 0 0 (Nat.two_pow_pos 63)
  rw [search, seek_positioned (Nat.two_pow_pos 63)]
  dsimp only
  rw [if_neg one_ne_zero]
  split
  · next hnone =>
    rw [hread] at hnone
    cases hnone
  · next _ _ _ _ hsome =>
    rw [hread] at hsome
    cases hsome
    rw [if_pos (hn hnil)]
    exact ⟨_, rfl⟩

theorem LastInChunks.ne_nil {t : Nat} (h : LastInChunks content t) : content.bytes ≠ [] := by
  intro hempty
  have hlt := OccursAt.lt_length h.1.1 signature_ne_nil
  rw [hempty] at hlt
  cases hlt

theorem LastInChunks.eq {s t : Nat} (hs : LastInChunks content s) (ht : LastInChunks content t) :
    s = t := hs.unique ht

/-- What is found, where it is not at the start of the file, is the last signature that is
within a chunk. -/
theorem Finds.pos_iff {place : Nat}
    (h : Finds content (chunkSize content) (content.bytes.length - chunkSize content) place) :
    (0 < place ∧ LastInChunks content place) ∨
      (place = 0 ∧ ∀ t, 0 < t → ¬ LastInChunks content t) := by
  rcases h with hlast | ⟨hzero, hnowhere⟩
  · rcases Nat.eq_zero_or_pos place with hzero | hpos
    · subst hzero
      refine .inr ⟨rfl, fun t ht hlast' => ?_⟩
      have heq := LastInChunks.eq hlast hlast'
      omega
    · exact .inl ⟨hpos, hlast⟩
  · exact .inr ⟨hzero, fun t _ hlast => hnowhere t hlast.1.1 hlast.1.2⟩

theorem determineStrippedLength_determined (name : String) (content : FileContent) :
    ∃ ok position length, determineStrippedLength (positioned name content 0 (-1)) =
        some (ok, positioned name content position length) ∧
      Determined content ok length := by
  have hsize := content.size_lt
  by_cases hempty : content.bytes = []
  · obtain ⟨position, hsearch⟩ := @search_empty content name (-1)
    refine ⟨false, position, -1, ?_, .inl ⟨hempty, rfl, rfl⟩⟩
    rw [determineStrippedLength, positioned]
    dsimp only
    rw [hempty, length_nil, Nat.zero_min, Nat.sub_zero, ← positioned, hsearch]
  · have hpos := length_pos_iff.mpr hempty
    obtain ⟨place, position, hsearch, hfinds⟩ := @search_finds content name (-1)
      (chunkSize content) (content.bytes.length - chunkSize content) 0
      (show 0 < chunkSize content by rw [chunkSize]; omega) (by rw [chunkSize]; omega)
      (by rw [chunkSize]; omega)
    rw [determineStrippedLength, positioned]
    dsimp only
    rw [← chunkSize, ← positioned, hsearch]
    dsimp only
    rcases hfinds.pos_iff with ⟨hplace, hlast⟩ | ⟨hzero, hnone⟩
    · rw [if_pos hplace]
      by_cases hroom : content.bytes.length < place + 22
      · rw [if_pos hroom]
        refine ⟨false, position, -1, rfl, .inr (.inr ⟨place, hplace, hlast, .inl ⟨?_, rfl, rfl⟩⟩)⟩
        rw [recordEnd]
        omega
      · rw [if_neg hroom, seek_positioned (by omega)]
        dsimp only
        rw [if_neg one_ne_zero]
        obtain ⟨n, code, hread, -, hn⟩ := @read_positioned content name (-1) (place + 20) 2
          (by omega)
        have hlength : (ahead content (place + 20) 2).length = 2 := by
          rw [ahead, length_take, length_drop]
          omega
        have hcount := hn (ne_nil_of_length_pos (by omega))
        rw [show (2 : BitVec 64) = .ofNat 64 2 from rfl, hread]
        dsimp only
        rw [if_neg (by omega), shiftLeft_or_bytes, ahead_two_getD _ 0 Nat.two_pos,
          ahead_two_getD _ 1 Nat.one_lt_two, Nat.add_zero, ← recordEnd]
        split
        next hcomment =>
          exact ⟨false, _, -1, rfl,
            .inr (.inr ⟨place, hplace, hlast, .inl ⟨hcomment, rfl, rfl⟩⟩)⟩
        next hcomment =>
          exact ⟨true, 0, recordEnd content place, rewind_positioned _,
            .inr (.inr ⟨place, hplace, hlast, .inr ⟨not_lt.mp hcomment, rfl, rfl⟩⟩)⟩
    · subst hzero
      exact ⟨true, 0, content.bytes.length, rewind_positioned position,
        .inr (.inl ⟨hempty, hnone, rfl, rfl⟩)⟩

end Found

/-! ## The claims on it -/

section Exact

/-- A call. The others leave everything as it is. -/
inductive IoCall
  | read (len : BitVec 64)
  | write
  | seek (offset : BitVec 64)
  | flush

/-- What is left after a call. -/
def call (io : StripSuffixIo) : IoCall → Option StripSuffixIo
  | .read len => (io.read len).map fun (_, _, _, io) => io
  | .write => some io.write.2.2
  | .seek offset => (io.seek offset).map fun (_, _, io) => io
  | .flush => some io.flush.2

variable (disk : String → Option FileContent)

/-- The original and what is made of it by calls and by duplicating. -/
inductive Family (original : StripSuffixIo) : StripSuffixIo → Prop
  | original : Family original original
  | call {io io' : StripSuffixIo} (c : IoCall) (h : Family original io)
      (hcall : io.call c = some io') : Family original io'
  | duplicate {io : StripSuffixIo} (h : Family original io) : Family original (io.duplicate disk)

/-- The length is the end of the archive that the last record of the file is of, if that
record is complete. -/
def LengthExact (content : FileContent) (io : StripSuffixIo) : Prop :=
  ∀ s, LastSignature content s → recordEnd content s ≤ content.bytes.length →
    io.length = recordEnd content s

/-- All of the family report the same length. -/
def DuplicatesAgree (original : StripSuffixIo) : Prop :=
  ∀ io, Family disk original io → io.length = original.length

/-- No read gives a byte at or beyond the length. -/
def ReadsWithin (original : StripSuffixIo) : Prop :=
  ∀ io io', Family disk original io → ∀ len n data code,
    io.read len = some (n, data, code, io') →
      ∀ k < data.length, io.tell + k < original.length

/-- The file of a name is stripped exactly; it is not used where `determineStrippedLength`
returns `false`. -/
def StripsExactly (filename : String) : Prop :=
  ∃ ok original, (create disk filename).determineStrippedLength = some (ok, original) ∧
    (∀ content, disk filename = some content → LengthExact content original) ∧
    (ok = true → DuplicatesAgree disk original ∧ ReadsWithin disk original)

variable {disk} {content : FileContent} {name : String} {position : Nat} {length : Int}

theorem read_some {len : BitVec 64} {n : Int} {data : List Byte} {code : ErrorCode}
    {io' : StripSuffixIo}
    (h : (positioned name content position length).read len = some (n, data, code, io')) :
    data = ahead content position len.toNat ∧
      io' = positioned name content (position + data.length) length := by
  by_cases hlen : len.toNat < 2 ^ 63
  · obtain ⟨n', code', hread, -⟩ := @read_positioned content name length position len.toNat hlen
    rw [BitVec.ofNat_toNat, BitVec.setWidth_eq, h] at hread
    cases hread
    exact ⟨rfl, rfl⟩
  · -- the size is negative as an `int64`, and the file throws
    have hneg : len.toInt < 0 := by
      rw [BitVec.toInt]
      have := len.isLt
      split_ifs <;> omega
    rw [read, positioned] at h
    dsimp only at h
    rw [NativeFile.read, if_pos hneg] at h
    cases h

theorem call_positioned {c : IoCall} {io' : StripSuffixIo}
    (h : (positioned name content position length).call c = some io') :
    ∃ position', io' = positioned name content position' length := by
  cases c with
  | read len =>
    obtain ⟨⟨n, data, code, io⟩, hread, rfl⟩ := Option.map_eq_some_iff.mp h
    exact ⟨_, (read_some hread).2⟩
  | write =>
    cases h
    exact ⟨position, rfl⟩
  | seek offset =>
    obtain ⟨⟨sought, code, io⟩, hseek, rfl⟩ := Option.map_eq_some_iff.mp h
    rw [seek, positioned] at hseek
    dsimp only at hseek
    rw [NativeFile.unbuffered_seek] at hseek
    split at hseek
    · cases hseek
      exact ⟨position, rfl⟩
    · next position' _ =>
      cases hseek
      exact ⟨position', rfl⟩
  | flush =>
    cases h
    exact ⟨position, rfl⟩

theorem create_eq (h : disk name = some content) :
    create disk name = positioned name content 0 (-1) := by
  rw [create, h]
  rfl

theorem Family.positioned (h : disk name = some content) {io : StripSuffixIo}
    (hio : Family disk (positioned name content position length) io) :
    ∃ position' length', io = StripSuffixIo.positioned name content position' length' ∧
      (length' = length ∨ length' = -1) := by
  induction hio with
  | original => exact ⟨position, length, rfl, .inl rfl⟩
  | call c _ hcall ih =>
    obtain ⟨position', length', rfl, hlength⟩ := ih
    obtain ⟨position'', rfl⟩ := call_positioned hcall
    exact ⟨position'', length', rfl, hlength⟩
  | duplicate _ ih =>
    obtain ⟨position', length', rfl, -⟩ := ih
    exact ⟨0, -1, create_eq h, .inr rfl⟩

theorem duplicatesAgree_iff (h : disk name = some content) :
    DuplicatesAgree disk (positioned name content position length) ↔ length = -1 := by
  constructor
  · intro hall
    have hduplicate := hall _ (.duplicate .original)
    exact hduplicate.symm
  · intro hlength io hio
    obtain ⟨position', length', rfl, heq⟩ := hio.positioned h
    change length' = length
    omega

theorem tell_positioned :
    (StripSuffixIo.positioned name content position length).tell = position := by
  exact Int.add_zero _

theorem readsWithin_iff (h : disk name = some content) :
    ReadsWithin disk (positioned name content position length) ↔
      content.bytes = [] ∨ content.bytes.length ≤ length := by
  have hsize := content.size_lt
  constructor
  · intro hall
    by_cases hempty : content.bytes = []
    · exact .inl hempty
    · -- the whole file is read
      have hpos := length_pos_iff.mpr hempty
      have hrewound : Family disk (.positioned name content position length)
          (.positioned name content 0 length) := by
        refine .call (.seek (.ofNat 64 0)) .original ?_
        rfl
      obtain ⟨n, code, hread, -⟩ := @read_positioned content name length 0 content.bytes.length hsize
      have hlast := hall _ _ hrewound _ _ _ _ hread (content.bytes.length - 1) (by
        rw [ahead, length_take, length_drop]
        omega)
      rw [tell_positioned] at hlast
      change _ < length at hlast
      exact .inr (by omega)
  · intro hlength io io' hio len n data code hread k hk
    obtain ⟨position', length', rfl, -⟩ := hio.positioned h
    obtain ⟨rfl, -⟩ := read_some hread
    rw [ahead, length_take, length_drop] at hk
    rw [tell_positioned]
    change _ < length
    rcases hlength with hempty | hle
    · rw [hempty, length_nil] at hk
      omega
    · omega

/-- The search gets to the end of the last complete record, at its own place or at another
one of the same end, or it gets nowhere and the record ends with the file. -/
def SeesEnd (content : FileContent) : Prop :=
  ∀ s, LastSignature content s → recordEnd content s ≤ content.bytes.length →
    (∃ t, 0 < t ∧ LastInChunks content t ∧ recordEnd content t = recordEnd content s) ∨
      (∀ t, 0 < t → ¬ LastInChunks content t) ∧ recordEnd content s = content.bytes.length

/-- The file is empty, or the record that the search gets to is not complete. -/
def Refused (content : FileContent) : Prop :=
  content.bytes = [] ∨
    ∃ t, 0 < t ∧ LastInChunks content t ∧ content.bytes.length < recordEnd content t

/-- Behind the record that the search gets to there is nothing. -/
def NothingBehind (content : FileContent) : Prop :=
  ∀ t, 0 < t → LastInChunks content t → content.bytes.length ≤ recordEnd content t

theorem Refused.incomplete (h : Refused content) (hsees : SeesEnd content) {s : Nat}
    (hs : LastSignature content s) : content.bytes.length < recordEnd content s := by
  by_contra hcomplete
  rcases h with hempty | ⟨t, ht, hlast, hlt⟩
  · have hin := OccursAt.lt_length hs.1 signature_ne_nil
    rw [hempty] at hin
    cases hin
  · rcases hsees s hs (not_lt.mp hcomplete) with ⟨t', -, hlast', heq⟩ | ⟨hnone, -⟩
    · cases hlast'.eq hlast
      omega
    · exact hnone t ht hlast

theorem Determined.lengthExact_iff {ok : Bool} (hok : Determined content ok length) :
    LengthExact content (StripSuffixIo.positioned name content position length) ↔
      SeesEnd content := by
  refine forall_congr' fun s => imp_congr_right fun hs => imp_congr_right fun hend => ?_
  change length = _ ↔ _
  rcases hok with ⟨hempty, -, -⟩ | ⟨-, hnone, -, hlength⟩ | ⟨t, ht, hlast, hcases⟩
  · have hlt := OccursAt.lt_length hs.1 signature_ne_nil
    rw [hempty] at hlt
    cases hlt
  · constructor
    · intro heq
      exact .inr ⟨hnone, by omega⟩
    · rintro (⟨t, ht, hlast, -⟩ | ⟨-, heq⟩)
      · exact absurd hlast (hnone t ht)
      · omega
  · have hto : ∀ t', LastInChunks content t' → t' = t := fun t' h => h.eq hlast
    constructor
    · intro heq
      refine .inl ⟨t, ht, hlast, ?_⟩
      rcases hcases with ⟨-, -, hlength⟩ | ⟨-, -, hlength⟩ <;> omega
    · rintro (⟨t', -, hlast', heq⟩ | ⟨hnone, -⟩)
      · cases hto t' hlast'
        rcases hcases with ⟨hlt, -, -⟩ | ⟨-, -, hlength⟩ <;> omega
      · exact absurd hlast (hnone t ht)

theorem Determined.ok_iff {ok : Bool} (hok : Determined content ok length) :
    (ok = true ↔ ¬ Refused content) ∧ (ok = true → length ≠ -1) := by
  rcases hok with ⟨hempty, rfl, -⟩ | ⟨hne, hnone, rfl, hlength⟩ | ⟨t, ht, hlast, hcases⟩
  · exact ⟨iff_of_false Bool.false_ne_true fun h => h (.inl hempty),
      fun h => absurd h Bool.false_ne_true⟩
  · refine ⟨iff_of_true rfl ?_, fun _ => by omega⟩
    rintro (hempty | ⟨t, ht, hlast, -⟩)
    · exact hne hempty
    · exact hnone t ht hlast
  · rcases hcases with ⟨hlt, rfl, -⟩ | ⟨hle, rfl, hlength⟩
    · exact ⟨iff_of_false Bool.false_ne_true fun h => h (.inr ⟨t, ht, hlast, hlt⟩),
        fun h => absurd h Bool.false_ne_true⟩
    · refine ⟨iff_of_true rfl ?_, fun _ => by omega⟩
      rintro (hempty | ⟨t', -, hlast', hlt⟩)
      · exact hlast.ne_nil hempty
      · cases hlast'.eq hlast
        omega

theorem Determined.nothingBehind_iff {ok : Bool} (hok : Determined content ok length) :
    (ok = true → content.bytes = [] ∨ content.bytes.length ≤ length) ↔
      NothingBehind content := by
  rcases hok with ⟨hempty, rfl, -⟩ | ⟨-, hnone, rfl, hlength⟩ | ⟨t, ht, hlast, hcases⟩
  · refine iff_of_true (fun h => absurd h Bool.false_ne_true) fun t _ hlast => ?_
    exact absurd hempty hlast.ne_nil
  · exact iff_of_true (fun _ => .inr hlength.ge) fun t ht hlast => absurd hlast (hnone t ht)
  · have hto : NothingBehind content ↔ content.bytes.length ≤ recordEnd content t := by
      constructor
      · intro h
        exact h t ht hlast
      · intro h t' _ hlast'
        cases hlast'.eq hlast
        exact h
    rw [hto]
    rcases hcases with ⟨hlt, rfl, -⟩ | ⟨hle, rfl, rfl⟩
    · exact iff_of_true (fun h => absurd h Bool.false_ne_true) hlt.le
    · constructor
      · intro h
        rcases h rfl with hempty | hle'
        · rw [hempty]
          exact Nat.zero_le _
        · exact_mod_cast hle'
      · intro h _
        exact .inr (by exact_mod_cast h)

/-- A `StripSuffixIo` that is used has an exact length if the search sees the end, but never
duplicates of that length, and its reads stay within the length only where there is nothing
behind the archive. So nothing is stripped exactly but what is refused rightly. -/
theorem stripsExactly_iff (disk : String → Option FileContent) (filename : String) :
    (StripsExactly disk filename ↔
      ∀ content, disk filename = some content → Refused content ∧
        ∀ s, LastSignature content s → content.bytes.length < recordEnd content s) ∧
    ∀ content, disk filename = some content → ∃ ok original,
      (create disk filename).determineStrippedLength = some (ok, original) ∧
      (LengthExact content original ↔ SeesEnd content) ∧
      ((ok = true → DuplicatesAgree disk original) ↔ Refused content) ∧
      ((ok = true → ReadsWithin disk original) ↔ NothingBehind content) := by
  have hopen : ∀ content, disk filename = some content → ∃ ok original,
      (create disk filename).determineStrippedLength = some (ok, original) ∧
      (LengthExact content original ↔ SeesEnd content) ∧
      ((ok = true → DuplicatesAgree disk original) ↔ Refused content) ∧
      ((ok = true → ReadsWithin disk original) ↔ NothingBehind content) ∧
      (ok = true ↔ ¬ Refused content) := by
    intro content hdisk
    obtain ⟨ok, position, length, hdetermine, hok⟩ :=
      determineStrippedLength_determined filename content
    obtain ⟨hused, hlength⟩ := hok.ok_iff
    refine ⟨ok, _, by rw [create_eq hdisk, hdetermine], hok.lengthExact_iff, ?_, ?_, hused⟩
    · rw [duplicatesAgree_iff hdisk]
      constructor
      · intro h
        by_contra hrefused
        exact hlength (hused.mpr hrefused) (h (hused.mpr hrefused))
      · intro hrefused h
        exact absurd hrefused (hused.mp h)
    · rw [readsWithin_iff hdisk]
      exact hok.nothingBehind_iff
  refine ⟨?_, fun content hdisk => ?_⟩
  · cases hdisk : disk filename with
    | none =>
      refine iff_of_true ⟨false, create disk filename, ?_, ?_, ?_⟩ ?_
      · rw [determineStrippedLength, create, hdisk]
        rfl
      · intro content hcontent
        cases hdisk.symm.trans hcontent
      · exact fun h => absurd h Bool.false_ne_true
      · rintro content ⟨⟩
    | some content =>
      obtain ⟨ok, original, hdetermine, hlength, hduplicates, -, hused⟩ := hopen content hdisk
      constructor
      · rintro ⟨ok', original', hdetermine', hexact, huse⟩ content' hcontent
        cases hcontent
        rw [hdetermine] at hdetermine'
        cases hdetermine'
        have hrefused := hduplicates.mp fun h => (huse h).1
        exact ⟨hrefused, fun s hs => hrefused.incomplete (hlength.mp (hexact content hdisk)) hs⟩
      · intro h
        obtain ⟨hrefused, hincomplete⟩ := h content rfl
        refine ⟨ok, original, hdetermine, ?_, fun h => absurd hrefused (hused.mp h)⟩
        intro content' hcontent s hs hcomplete
        cases hdisk.symm.trans hcontent
        exact absurd (hincomplete s hs) (not_lt.mpr hcomplete)
  · obtain ⟨ok, original, hdetermine, hlength, hduplicates, hreads, -⟩ := hopen content hdisk
    exact ⟨ok, original, hdetermine, hlength, hduplicates, hreads⟩

/-- An archive of one record, a byte before it and one behind it. -/
def wrapped : FileContent :=
  ⟨0 :: signature ++ List.replicate 19 0, by decide⟩

theorem lastSignature_wrapped : LastSignature wrapped 1 :=
  (rfind_eq_some signature_ne_nil).mp (by decide)

theorem lastInChunks_wrapped : LastInChunks wrapped 1 :=
  ⟨⟨lastSignature_wrapped.1, 0, by decide⟩, fun _ ht => lastSignature_wrapped.2 ht.1⟩

/-- A duplicate of it has no length, and its last byte is still read. -/
theorem not_stripsExactly_wrapped :
    ¬ StripsExactly (fun _ => some wrapped) "game.exe" := by
  rintro ⟨ok, original, hdetermine, -, huse⟩
  obtain ⟨ok', position, length, hdetermine', hok⟩ :=
    determineStrippedLength_determined "game.exe" wrapped
  cases hdetermine.symm.trans hdetermine'
  have hused := hok.ok_iff
  have hnot : ¬ Refused wrapped := by
    rintro (hempty | ⟨t, -, hlast, hlt⟩)
    · exact lastInChunks_wrapped.ne_nil hempty
    · cases hlast.eq lastInChunks_wrapped
      exact absurd hlt (by decide)
  have hagree := (huse (hused.1.mpr hnot)).1
  exact hused.2 (hused.1.mpr hnot) ((duplicatesAgree_iff rfl).mp hagree)

/-- Its own length is right. -/
theorem stripsExactly_iff_wrapped : ∃ ok original,
    (create (fun _ => some wrapped) "game.exe").determineStrippedLength = some (ok, original) ∧
      LengthExact wrapped original := by
  obtain ⟨ok, original, hdetermine, hlength, -⟩ :=
    (stripsExactly_iff (fun _ => some wrapped) "game.exe").2 wrapped rfl
  refine ⟨ok, original, hdetermine, hlength.mpr fun s hs _ => ?_⟩
  cases hs.unique lastSignature_wrapped
  exact .inl ⟨1, Nat.one_pos, lastInChunks_wrapped, rfl⟩

end Exact

end Lhatove.Filesystem.StripSuffixIo
