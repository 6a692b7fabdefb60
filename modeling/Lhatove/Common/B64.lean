import Mathlib.Tactic

/-!
# Base64 (`common/b64.cpp`)

The model of `b64_encode` and `b64_decode`, statement by statement.

- A `char` is a `UInt8`; the shifts and masks of the block functions are the
  ones of the source.
- `operator new[]` is a parameter `alloc` that says which sizes it serves; a
  refusal is the `"Out of memory."` exception of both functions.
- `b64Encode` fills its block from the front and never goes back, so the block
  is the list of characters written so far (`dstpos` is its length); what was
  reserved and not written is read back as `none` (`Encoded.reported`).
- `b64Decode` walks the source through *cells* (byte and address), the last
  one at address `srclen`, because the loops run while `srcpos <= srclen`.
  Every read logs its address, so that memory safety is a statement about the
  model and not a remark beside it.
-/

namespace Lhatove

/-- Allocation: which sizes `operator new[]` serves. -/
abbrev Alloc := Nat → Bool

/-- `size_t` arithmetic of a 64-bit build. -/
def sizeT (n : Nat) : Nat := n % 2 ^ 64

theorem sizeT_of_lt {n : Nat} (h : n < 2 ^ 64) : sizeT n = n := Nat.mod_eq_of_lt h

/-- A block of memory that really exists: no object is larger than
`PTRDIFF_MAX` bytes. -/
structure Block where
  bytes : List UInt8
  size_lt : bytes.length < 2 ^ 63

namespace B64

/-! ## The two translation tables -/

/-- The characters of a string literal, as `char`s. -/
def chars (s : String) : List UInt8 := s.toList.map (·.toNat.toUInt8)

/-- Translation table as described in RFC1113. -/
def cb64 : List UInt8 :=
  chars "ABCDEFGHIJKLMNOPQRSTUVWXYZabcdefghijklmnopqrstuvwxyz0123456789+/"

/-- Translation table to decode. -/
def cd64 : List UInt8 :=
  chars ("|$$$\x7drstuvwxyz\x7b$$$$$$$>?@ABCDEFGHIJKLMNOPQRSTUVW$$$$$$XYZ[\\]^_`" ++
    "abcdefghijklmnopq")

/-- `'='`, the padding character. -/
def pad : UInt8 := 61

/-- `'\n'`. -/
def newline : UInt8 := 10

/-- `cb64[i]`. -/
def cb64At (i : UInt8) : UInt8 := cb64.getD i.toNat 0

/-! ## Encoding -/

/-- `b64_encode_block`: three bytes as four characters, of which `len`
bytes are real. -/
def b64EncodeBlock (i0 i1 i2 : UInt8) (len : Nat) : List UInt8 :=
  [ cb64At ((i0 &&& 0xfc) >>> 2),
    cb64At (((i0 &&& 0x03) <<< 4) ||| ((i1 &&& 0xf0) >>> 4)),
    if len > 1 then cb64At (((i1 &&& 0x0f) <<< 2) ||| ((i2 &&& 0xc0) >>> 6)) else pad,
    if len > 2 then cb64At (i2 &&& 0x3f) else pad ]

/-- What `b64_encode` hands back: the characters it wrote and the length it
reports. -/
structure Encoded where
  dst : List UInt8
  dstlen : Nat

/-- The `dstlen` bytes the caller sees: the characters written, the closing
`'\0'` when it falls below `dstlen`, and memory nobody initialised. -/
def Encoded.reported (e : Encoded) : List (Option UInt8) :=
  ((e.dst ++ [0]).map some ++ List.replicate e.dstlen none).take e.dstlen

/-- `for (i = 0; i < 4 && dstpos < dstlen; i++, dstpos++) dst[dstpos] = out[i];` -/
def writeBlock (dstlen : Nat) (out dst : List UInt8) : List UInt8 :=
  dst ++ out.take (dstlen - dst.length)

/-- The line break at the end of the loop body: `last` is `srcpos >= srclen`.
Returns `blocksout` and the characters written. -/
def breakLine (linelen dstlen blocksout : Nat) (last : Bool) (dst : List UInt8) :
    Nat × List UInt8 :=
  if blocksout ≥ linelen / 4 ∨ last then
    (0, if blocksout > 0 ∧ dst.length < dstlen then dst ++ [newline] else dst)
  else
    (blocksout, dst)

/-- The `while (srcpos < srclen)` loop on the bytes from `srcpos` on; each
round takes up to three. -/
def encodeLoop (linelen dstlen : Nat) :
    (src : List UInt8) → (blocksout : Nat) → (dst : List UInt8) → List UInt8
  | [], _, dst => dst
  | [a], blocksout, dst =>
    (breakLine linelen dstlen (blocksout + 1) true
      (writeBlock dstlen (b64EncodeBlock a 0 0 1) dst)).2
  | [a, b], blocksout, dst =>
    (breakLine linelen dstlen (blocksout + 1) true
      (writeBlock dstlen (b64EncodeBlock a b 0 2) dst)).2
  | a :: b :: c :: src, blocksout, dst =>
    let r := breakLine linelen dstlen (blocksout + 1) src.isEmpty
      (writeBlock dstlen (b64EncodeBlock a b c 3) dst)
    encodeLoop linelen dstlen src r.1 r.2

/-- `if (linelen == 0) linelen = std::numeric_limits<size_t>::max();` -/
def effectiveLinelen (linelen : Nat) : Nat := if linelen = 0 then 2 ^ 64 - 1 else linelen

/-- `paddedlen`: four characters for each started block of three bytes. -/
def paddedlen (srclen : Nat) : Nat :=
  let adjustment := if srclen % 3 ≠ 0 then 3 - srclen % 3 else 0
  sizeT (sizeT (srclen + adjustment) / 3 * 4)

/-- `dstlen`, for a `linelen` that is not 0. -/
def dstlenOf (srclen linelen : Nat) : Nat :=
  sizeT (paddedlen srclen + paddedlen srclen / linelen)

/-- `b64_encode`. -/
def b64Encode (alloc : Alloc) (src : List UInt8) (linelen : Nat) :
    Except String Encoded :=
  let linelen := effectiveLinelen linelen
  let dstlen := dstlenOf src.length linelen
  if dstlen = 0 then
    .ok ⟨[], 0⟩
  else if alloc (sizeT (dstlen + 1)) then
    .ok ⟨encodeLoop linelen dstlen src 0 [], dstlen⟩
  else
    .error "Out of memory."

/-! ## Decoding -/

/-- The table lookup of the decoder's inner loop: 0 for a character that is
skipped, else the 6-bit value plus one. -/
def lookup (c : UInt8) : UInt8 :=
  let v := if c < 43 ∨ c > 122 then 0 else cd64.getD (c - 43).toNat 0
  if v ≠ 0 then (if v = 36 then 0 else v - 61) else v

/-- A byte of the source with its address. -/
abbrev Cell := UInt8 × Nat

/-- The cells the decoder may look at: `src[0..srclen)` and the byte that
happens to lie at `src[srclen]`. -/
def cells (src : List UInt8) (past : UInt8) : List Cell := (src ++ [past]).zipIdx

/-- `while (srcpos <= srclen && v == 0)`: the value found, the cells that are
left (none: `srcpos > srclen`) and the addresses read. -/
def nextChar : List Cell → UInt8 × List Cell × List Nat
  | [] => (0, [], [])
  | (c, a) :: rest =>
    if lookup c = 0 then
      let r := nextChar rest
      (r.1, r.2.1, a :: r.2.2)
    else
      (lookup c, rest, [a])

/-- The decoder's variables. -/
structure DecodeState where
  rest : List Cell
  group : List UInt8 := [0, 0, 0, 0]
  len : Nat := 0
  dst : List UInt8 := []
  reads : List Nat := []

/-- One round of `for (len = 0, i = 0; i < 4 && srcpos <= srclen; i++)`. -/
def readSlot (s : DecodeState) (i : Nat) : DecodeState :=
  if s.rest = [] then
    s
  else
    let r := nextChar s.rest
    if r.2.1 ≠ [] then
      { s with
        rest := r.2.1, reads := s.reads ++ r.2.2, len := s.len + 1
        group := if r.1 ≠ 0 then s.group.set i (r.1 - 1) else s.group }
    else
      { s with rest := [], reads := s.reads ++ r.2.2, group := s.group.set i 0 }

/-- `b64_decode_block`. -/
def b64DecodeBlock (g : List UInt8) : List UInt8 :=
  let i := fun k => g.getD k 0
  [ (i 0 <<< 2) ||| (i 1 >>> 4),
    (i 1 <<< 4) ||| (i 2 >>> 2),
    ((i 2 <<< 6) &&& 0xc0) ||| i 3 ]

/-- The `for` loop over the four slots of a group. -/
def readGroup (s : DecodeState) : DecodeState :=
  [0, 1, 2, 3].foldl readSlot { s with len := 0 }

/-- `if (len)`: decode the group and write `len - 1` bytes. -/
def writeGroup (s : DecodeState) : DecodeState :=
  { s with
    dst := if s.len ≠ 0 then s.dst ++ (b64DecodeBlock s.group).take (s.len - 1) else s.dst }

/-- The body of the outer loop. -/
def decodeStep (s : DecodeState) : DecodeState := writeGroup (readGroup s)

/-- `while (srcpos <= srclen)`. Every round reads at least one cell, so as
many rounds as there are cells are enough (`decodeLoop_rest`). -/
def decodeLoop : Nat → DecodeState → DecodeState
  | 0, s => s
  | n + 1, s => if s.rest = [] then s else decodeLoop n (decodeStep s)

/-- What a call of `b64_decode` did: the bytes it wrote from `dst[0]` on, the
size of the block they go to, and the source addresses it read. -/
structure Decoded where
  dst : List UInt8
  capacity : Nat
  reads : List Nat

/-- The `size` that is reported. -/
def Decoded.size (d : Decoded) : Nat := d.dst.length

/-- `b64_decode` of `src`, with `past` the byte behind it. -/
def b64Decode (alloc : Alloc) (src : List UInt8) (past : UInt8) :
    Except String Decoded :=
  let paddedsize := src.length / 4 * 3
  if alloc paddedsize then
    let s := decodeLoop (src.length + 1) { rest := cells src past }
    .ok ⟨s.dst, paddedsize, s.reads⟩
  else
    .error "Out of memory."

end B64

end Lhatove
