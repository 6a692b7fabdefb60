import Lhatove.Common.Range
import Lhatove.Lib.Search

/-!
# The comments of a shader

`glsl::parseComments`, `inComment` and `textSearch`, of the code of a shader.
-/

namespace Lhatove.Graphics.Glsl

inductive CommentType
  | none
  | line
  | block
  deriving DecidableEq

/-- The variables of `parseComments`. -/
structure CommentScan where
  commenttype : CommentType
  comment : Range
  comments : List Range

section Scan

variable (src : List Char)

/-- The body of the loop of `parseComments`. -/
def parseStep (s : CommentScan) (i : Nat) : CommentScan :=
  match s.commenttype with
  | .none =>
    if src[i]? = some '/' ∧ i + 1 < src.length then
      if src[i + 1]? = some '/' then { s with commenttype := .line, comment := .ofSize i 1 }
      else if src[i + 1]? = some '*' then
        { s with commenttype := .block, comment := .ofSize i 1 }
      else s
    else s
  | .line =>
    if src[i]? = some '\n' then
      let comment := { s.comment with last := i }
      ⟨.none, comment, s.comments ++ [comment]⟩
    else s
  | .block =>
    if src[i]? = some '/' ∧ 0 < i ∧ src[i - 1]? = some '*' then
      let comment := { s.comment with last := i }
      ⟨.none, comment, s.comments ++ [comment]⟩
    else s

/-- The end of `parseComments`. -/
def finish (s : CommentScan) : List Range :=
  if s.commenttype = .line then s.comments ++ [{ s.comment with last := src.length - 1 }]
  else s.comments

def parseComments : List Range :=
  finish src ((List.range src.length).foldl (parseStep src) ⟨.none, .invalid, []⟩)

def inComment (i : Nat) (comments : List Range) : Bool :=
  comments.any fun comment => comment.contains (.ofSize i 1)

/-- The loop of `textSearch`. -/
def textSearchFrom (str : List Char) (hstr : str ≠ []) (comments : List Range) (start : Nat) :
    Bool :=
  match _hfound : findFrom str src start with
  | none => false
  | some found =>
    if !inComment found comments then true
    else textSearchFrom str hstr comments (found + str.length)
termination_by src.length + 1 - start
decreasing_by
  have hspec := (findFrom_eq_some.mp _hfound).1
  have hpos := List.length_pos_iff.mpr hstr
  omega

/-- `textSearch`. With nothing to search for it would not end. -/
def textSearch (str : List Char) (hstr : str ≠ []) (comments : List Range) : Bool :=
  textSearchFrom src str hstr comments 0

end Scan

end Lhatove.Graphics.Glsl
