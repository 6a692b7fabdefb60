import Lhatove.Font.GlyphData

/-!
# Lines of BMFont files

`BMFontLine`: the tag of a line, and its attributes.

- Text is a list of characters, each of which is a byte.
- `long` has 64 bits.
- `newBMFontLine_ends`: the search for attributes ends for every line.
-/

namespace Lhatove.Font

/-- `std::string` -/
abbrev Text := List Char

namespace Text

/-- `find(c, pos)` -/
def find (text : Text) (c : Char) (pos : Nat) : Option Nat :=
  ((text.drop pos).findIdx? (· == c)).map (pos + ·)

/-- `rfind(c, pos)`, of a position that is not behind the end -/
def rfind (text : Text) (c : Char) : Nat → Option Nat
  | 0 => if text[0]? = some c then some 0 else none
  | pos + 1 => if text[pos + 1]? = some c then some (pos + 1) else rfind text c pos

/-- `substr(pos, count)`, of a position that is not behind the end -/
def substr (text : Text) (pos count : Nat) : Text := (text.drop pos).take count

theorem le_of_find {text : Text} {c : Char} {pos i : Nat} (h : text.find c pos = some i) :
    pos ≤ i ∧ i < text.length := by
  rw [find, Option.map_eq_some_iff] at h
  obtain ⟨k, hk, rfl⟩ := h
  have hlt := (List.findIdx?_eq_some_iff_getElem.mp hk).1
  rw [List.length_drop] at hlt
  omega

theorem lt_find_getD {text : Text} {c : Char} {pos i : Nat} (hpos : i < pos)
    (hend : i < text.length) : i < (text.find c pos).getD text.length := by
  cases hfind : text.find c pos with
  | none => exact hend
  | some found => exact lt_of_lt_of_le hpos (le_of_find hfind).1

def isSpace (c : Char) : Bool :=
  c == ' ' || c == '\t' || c == '\n' || c == '\x0b' || c == '\x0c' || c == '\r'

/-- The digits at the front, behind those whose value is known. -/
def digits (value : Nat) : Text → Nat
  | [] => value
  | c :: rest => if c.isDigit then digits (10 * value + (c.toNat - '0'.toNat)) rest else value

/-- `strtol`, to the base of ten -/
def strtol (text : Text) : Int :=
  let value : Int := match text.dropWhile isSpace with
    | '-' :: rest => -digits 0 rest
    | '+' :: rest => digits 0 rest
    | rest => digits 0 rest
  max (-2 ^ 63) (min (2 ^ 63 - 1) value)

/-- The lines that `std::getline` reads, one after the other. -/
def linesFrom (line : Text) : Text → List Text
  | [] => if line = [] then [] else [line]
  | c :: rest => if c = '\n' then line :: linesFrom [] rest else linesFrom (line ++ [c]) rest

def lines (text : Text) : List Text := linesFrom [] text

end Text

/-! ## A line -/

structure BMFontLine where
  tag : Text
  /-- the last one set first -/
  attributes : List (Text × Text)

/-- A turn of the loop: the key and the value behind `startpos`, and where the value has
ended. There is none if the loop breaks. -/
def pair (line : Text) (startpos : Nat) : Option (Text × Text × Nat) := do
  let fpos ← line.find '=' startpos
  if line.length ≤ fpos + 1 then none
  else
    let space ← line.rfind ' ' fpos
    let keystart := space + 1
    let key := line.substr keystart (fpos - keystart)
    -- a value may be in quotes; `valend` is one before what is found behind its first
    -- character or quote, or the last position of the line
    let quoted := line.getD (fpos + 1) ' ' = '"'
    let valstart := if quoted then fpos + 2 else fpos + 1
    let stop := (line.find (if quoted then '"' else ' ') (fpos + 2)).getD line.length
    some (key, line.substr valstart (stop - valstart), stop)

/-- The loop, of as many turns as there are. -/
def attributesLoop (line : Text) :
    Nat → Nat → List (Text × Text) → Except GlyphFault (List (Text × Text))
  | 0, _, _ => .error .endless
  | turns + 1, startpos, attributes =>
    if startpos < line.length then
      match pair line startpos with
      | none => .ok attributes
      | some (key, value, stop) => attributesLoop line turns stop ((key, value) :: attributes)
    else .ok attributes

def newBMFontLine (line : Text) : Except GlyphFault BMFontLine := do
  let attributes ← attributesLoop line (line.length + 1) 0 []
  .ok ⟨line.substr 0 ((line.find ' ' 0).getD line.length), attributes⟩

namespace BMFontLine

/-- The cast to `int` keeps 32 bits. -/
def getAttributeInt (cline : BMFontLine) (name : String) : Int :=
  match cline.attributes.lookup name.toList with
  | some value => (Text.strtol value).bmod (2 ^ 32)
  | none => 0

def getAttributeString (cline : BMFontLine) (name : String) : Text :=
  (cline.attributes.lookup name.toList).getD []

theorem getAttributeInt_bounds (cline : BMFontLine) (name : String) :
    -2 ^ 31 ≤ cline.getAttributeInt name ∧ cline.getAttributeInt name < 2 ^ 31 := by
  rw [getAttributeInt]
  cases cline.attributes.lookup name.toList with
  | none => norm_num
  | some value =>
    have hlow := @Int.le_bmod (Text.strtol value) (2 ^ 32) (by norm_num)
    have hhigh := @Int.bmod_lt (Text.strtol value) (2 ^ 32) (by norm_num)
    norm_num at hlow hhigh ⊢
    exact ⟨hlow, hhigh⟩

end BMFontLine

/-! ## The end of the loop -/

theorem lt_of_pair {line key value : Text} {startpos stop : Nat}
    (h : pair line startpos = some (key, value, stop)) : startpos < stop := by
  rw [pair] at h
  cases hfpos : line.find '=' startpos with
  | none =>
    rw [hfpos] at h
    cases h
  | some fpos =>
    have hle := (Text.le_of_find hfpos).1
    rw [hfpos] at h
    simp only [Option.bind_eq_bind, Option.bind_some] at h
    split at h
    · cases h
    · cases hspace : line.rfind ' ' fpos with
      | none =>
        rw [hspace] at h
        cases h
      | some space =>
        simp only [hspace, Option.bind_some, Option.some.injEq, Prod.mk.injEq] at h
        obtain ⟨-, -, rfl⟩ := h
        exact Text.lt_find_getD (by omega) (by omega)

theorem attributesLoop_ends {line : Text} {turns startpos : Nat} {attributes : List (Text × Text)}
    (h : line.length - startpos < turns) :
    ∃ attributes', attributesLoop line turns startpos attributes = .ok attributes' := by
  induction turns generalizing startpos attributes with
  | zero => exact absurd h (Nat.not_lt_zero _)
  | succ turns ih =>
    rw [attributesLoop]
    split_ifs with hlt
    · cases hpair : pair line startpos with
      | none => exact ⟨attributes, rfl⟩
      | some found =>
        have := lt_of_pair hpair
        exact ih (by omega)
    · exact ⟨attributes, rfl⟩

/-- **Every line is parsed.** -/
theorem newBMFontLine_ends (line : Text) : ∃ cline, newBMFontLine line = .ok cline := by
  obtain ⟨attributes, h⟩ := @attributesLoop_ends line (line.length + 1) 0 [] (by omega)
  exact ⟨_, by rw [newBMFontLine, h]; rfl⟩

end Lhatove.Font
