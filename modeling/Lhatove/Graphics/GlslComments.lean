import Lhatove.Graphics.ShaderComments

/-!
# The comments that GLSL knows

- `glslComments`: the comments of a shader's code, as the grammar has them;
- `codeRanges_eq_iff`: where `parseComments` finds the same;
- `detectsComments_iff`: what follows for `inComment` and `textSearch`.

The end of a line is a line feed, a carriage return, or one after the other; it is the last
of its comment. In some versions a backslash before the end of a line joins it to the next
one, before anything else is made of the code.
-/

namespace Lhatove.Graphics.Glsl

open List

inductive CommentKind
  | line
  | block
  /-- without an end -/
  | openBlock
  deriving DecidableEq

/-- A comment, with its first and last character. -/
structure GlslComment where
  kind : CommentKind
  first : Nat
  last : Nat
  deriving DecidableEq

/-- The characters. -/
def GlslComment.range (c : GlslComment) : Range := ⟨c.first, c.last⟩

section Grammar

-- `splices` is whether the version has line continuations
variable (splices : Bool) (src : List Char)

/-- The length of the line continuation that there is at `p`. -/
def spliceLength (p : Nat) : Nat :=
  if splices ∧ src[p]? = some '\\' then
    if src[p + 1]? = some '\r' ∧ src[p + 2]? = some '\n' then 3
    else if src[p + 1]? = some '\r' ∨ src[p + 1]? = some '\n' then 2
    else 0
  else 0

theorem spliceLength_lt {p : Nat} (h : spliceLength splices src p ≠ 0) : p < src.length := by
  by_contra hp
  rw [spliceLength, getElem?_eq_none (by omega)] at h
  simp at h

/-- The next character that is not of a line continuation. -/
def nextChar (p : Nat) : Nat :=
  if _h : spliceLength splices src p = 0 then p else nextChar (p + spliceLength splices src p)
termination_by src.length - p
decreasing_by
  have hp := spliceLength_lt splices src _h
  omega

theorem nextChar_ge (p : Nat) : p ≤ nextChar splices src p := by
  induction p using nextChar.induct splices src with
  | case1 p h => rw [nextChar, dif_pos h]
  | case2 p h ih =>
    rw [nextChar, dif_neg h]
    omega

/-- The last character of a line comment that is read up to `p`. -/
def lineLast (p : Nat) : Nat :=
  let i := nextChar splices src p
  if src.length ≤ i then src.length - 1
  else if src[i]? = some '\n' then i
  else if src[i]? = some '\r' then if src[i + 1]? = some '\n' then i + 1 else i
  else lineLast (i + 1)
termination_by src.length - p
decreasing_by
  have hi := nextChar_ge splices src p
  omega

/-- The last character of a block comment that is read up to `p`. -/
def blockLast (p : Nat) : Option Nat :=
  let i := nextChar splices src p
  let j := nextChar splices src (i + 1)
  if src.length ≤ i then none
  else if src[i]? = some '*' ∧ src[j]? = some '/' then some j
  else blockLast (i + 1)
termination_by src.length - p
decreasing_by
  have hi := nextChar_ge splices src p
  omega

theorem lineLast_ge {p : Nat} (hp : p ≤ src.length) : p ≤ lineLast splices src p + 1 := by
  induction p using lineLast.induct splices src with
  | case1 p i h =>
    rw [lineLast, if_pos h]
    omega
  | case2 p i h hlf =>
    have hi := nextChar_ge splices src p
    rw [lineLast, if_neg h, if_pos hlf]
    omega
  | case3 p i h hlf hcr hnext =>
    have hi := nextChar_ge splices src p
    rw [lineLast, if_neg h, if_neg hlf, if_pos hcr, if_pos hnext]
    omega
  | case4 p i h hlf hcr hnext =>
    have hi := nextChar_ge splices src p
    rw [lineLast, if_neg h, if_neg hlf, if_pos hcr, if_neg hnext]
    omega
  | case5 p i h hlf hcr ih =>
    have hi : p ≤ i := nextChar_ge splices src p
    have hge := ih (by omega)
    rw [lineLast, if_neg h, if_neg hlf, if_neg hcr]
    exact le_trans (by omega) hge

theorem blockLast_ge {p l : Nat} (hl : blockLast splices src p = some l) : p ≤ l := by
  induction p using blockLast.induct splices src with
  | case1 p i h =>
    rw [blockLast, if_pos h] at hl
    cases hl
  | case2 p i j h hend =>
    have hi : p ≤ i := nextChar_ge splices src p
    have hj : i + 1 ≤ j := nextChar_ge splices src (i + 1)
    rw [blockLast, if_neg h, if_pos hend] at hl
    cases hl
    exact le_trans (by omega) hj
  | case3 p i j h hend ih =>
    have hi : p ≤ i := nextChar_ge splices src p
    rw [blockLast, if_neg h, if_neg hend] at hl
    have hge := ih hl
    omega

/-- The comments from `p` on, which is not within one. -/
def glslComments (p : Nat) : List GlslComment :=
  let i := nextChar splices src p
  let j := nextChar splices src (i + 1)
  if _h : src.length ≤ i then []
  else if src[i]? = some '/' ∧ src[j]? = some '/' then
    ⟨.line, i, lineLast splices src (j + 1)⟩ :: glslComments (lineLast splices src (j + 1) + 1)
  else if src[i]? = some '/' ∧ src[j]? = some '*' then
    match _hl : blockLast splices src (j + 1) with
    | some l => ⟨.block, i, l⟩ :: glslComments (l + 1)
    | none => [⟨.openBlock, i, src.length - 1⟩]
  else glslComments (i + 1)
termination_by src.length - p
decreasing_by
  all_goals
    have hi : p ≤ i := nextChar_ge splices src p
    have hj : i + 1 ≤ j := nextChar_ge splices src (i + 1)
  · next hmarker =>
    obtain ⟨hjlt, -⟩ := List.getElem?_eq_some_iff.mp hmarker.2
    have hge := @lineLast_ge splices src (j + 1) hjlt
    change src.length - (lineLast splices src (j + 1) + 1) < src.length - p
    omega
  · have hge := blockLast_ge splices src _hl
    omega
  · omega

end Grammar

/-! ## What the scan finds -/

section Scan

variable (src : List Char)

/-- The scan from `p` on. -/
def scanFrom (s : CommentScan) (p : Nat) : CommentScan :=
  (List.range' p (src.length - p)).foldl (parseStep src) s

/-- What it finds from `p` on, outside of a comment. -/
def codeRanges (p : Nat) : List Range := finish src (scanFrom src ⟨.none, .invalid, []⟩ p)

variable {src} {p e : Nat} {r : Range} {cs : List Range}

theorem parseComments_eq : parseComments src = codeRanges src 0 := by
  rw [parseComments, codeRanges, scanFrom, range_eq_range', Nat.sub_zero]

theorem scanFrom_step (s : CommentScan) (hp : p < src.length) :
    scanFrom src s p = scanFrom src (parseStep src s p) (p + 1) := by
  rw [scanFrom, scanFrom, show src.length - p = (src.length - (p + 1)) + 1 by omega,
    range'_succ, foldl_cons]

theorem scanFrom_end (s : CommentScan) (hp : src.length ≤ p) : scanFrom src s p = s := by
  rw [scanFrom, Nat.sub_eq_zero_of_le hp]
  rfl

theorem finish_scanFrom (t : CommentType) (r : Range) (cs : List Range) (p : Nat) :
    finish src (scanFrom src ⟨t, r, cs⟩ p) = cs ++ finish src (scanFrom src ⟨t, r, []⟩ p) := by
  by_cases hp : p < src.length
  · have hstep : ∃ t' r' found, ∀ cs, parseStep src ⟨t, r, cs⟩ p = ⟨t', r', cs ++ found⟩ := by
      cases t with
      | none =>
        simp only [parseStep]
        split_ifs
        all_goals exact ⟨_, _, [], fun cs => by rw [append_nil]⟩
      | line =>
        simp only [parseStep]
        split_ifs
        · exact ⟨_, _, _, fun cs => rfl⟩
        · exact ⟨_, _, [], fun cs => by rw [append_nil]⟩
      | block =>
        simp only [parseStep]
        split_ifs
        · exact ⟨_, _, _, fun cs => rfl⟩
        · exact ⟨_, _, [], fun cs => by rw [append_nil]⟩
    obtain ⟨t', r', found, hfound⟩ := hstep
    rw [scanFrom_step _ hp, scanFrom_step _ hp, hfound, hfound,
      finish_scanFrom t' r' (cs ++ found) (p + 1), finish_scanFrom t' r' ([] ++ found) (p + 1),
      append_assoc, nil_append]
  · rw [scanFrom_end _ (not_lt.mp hp), scanFrom_end _ (not_lt.mp hp)]
    simp only [finish]
    split_ifs
    · rfl
    · rw [append_nil]
termination_by src.length - p

/-- There is a marker at `p`. -/
def Marker (src : List Char) (p : Nat) (c : Char) : Prop :=
  src[p]? = some '/' ∧ src[p + 1]? = some c

theorem Marker.lt {c : Char} (h : Marker src p c) : p + 1 < src.length :=
  (List.getElem?_eq_some_iff.mp h.2).1

theorem codeRanges_end (hp : src.length ≤ p) : codeRanges src p = [] := by
  rw [codeRanges, scanFrom_end _ hp]
  rfl

theorem codeRanges_skip (hline : ¬ Marker src p '/') (hblock : ¬ Marker src p '*') :
    codeRanges src p = codeRanges src (p + 1) := by
  by_cases hp : p < src.length
  · have hstep : parseStep src ⟨.none, .invalid, []⟩ p = ⟨.none, .invalid, []⟩ := by
      simp only [parseStep]
      split_ifs with hslash hnext hnext'
      · exact absurd ⟨hslash.1, hnext⟩ hline
      · exact absurd ⟨hslash.1, hnext'⟩ hblock
      · rfl
      · rfl
    rw [codeRanges, scanFrom_step _ hp, hstep, codeRanges]
  · rw [codeRanges_end (not_lt.mp hp), codeRanges_end (by omega)]

theorem scan_none (r r' : Range) (p : Nat) :
    finish src (scanFrom src ⟨.none, r, []⟩ p) = finish src (scanFrom src ⟨.none, r', []⟩ p) := by
  by_cases hp : p < src.length
  · rw [scanFrom_step _ hp, scanFrom_step _ hp]
    simp only [parseStep]
    split_ifs
    · rfl
    · rfl
    all_goals exact scan_none r r' (p + 1)
  · rw [scanFrom_end _ (not_lt.mp hp), scanFrom_end _ (not_lt.mp hp)]
    rfl
termination_by src.length - p

/-- The scan finds the end of a comment at `k`. -/
def EndsAt (src : List Char) : CommentType → Nat → Prop
  | .none, _ => False
  | .line, k => src[k]? = some '\n'
  | .block, k => src[k]? = some '/' ∧ 0 < k ∧ src[k - 1]? = some '*'

/-- The first end from `p` on. -/
def FirstEnd (src : List Char) (t : CommentType) (p e : Nat) : Prop :=
  p ≤ e ∧ EndsAt src t e ∧ ∀ k, p ≤ k → k < e → ¬ EndsAt src t k

variable {t : CommentType}

theorem EndsAt.lt (h : EndsAt src t e) : e < src.length := by
  cases t with
  | none => exact h.elim
  | line => exact (List.getElem?_eq_some_iff.mp h).1
  | block => exact (List.getElem?_eq_some_iff.mp h.1).1

theorem parseStep_end (h : EndsAt src t p) :
    parseStep src ⟨t, r, cs⟩ p = ⟨.none, ⟨r.first, p⟩, cs ++ [⟨r.first, p⟩]⟩ := by
  cases t with
  | none => exact h.elim
  | line | block => exact if_pos h

theorem parseStep_within (ht : t ≠ .none) (h : ¬ EndsAt src t p) :
    parseStep src ⟨t, r, cs⟩ p = ⟨t, r, cs⟩ := by
  cases t with
  | none => exact absurd rfl ht
  | line | block => exact if_neg h

theorem scan_comment (h : FirstEnd src t p e) :
    finish src (scanFrom src ⟨t, r, []⟩ p) = ⟨r.first, e⟩ :: codeRanges src (e + 1) := by
  obtain ⟨hpe, hend, hbefore⟩ := h
  have he := hend.lt
  have ht : t ≠ .none := by
    rintro rfl
    exact hend
  induction hn : e - p generalizing p with
  | zero =>
    obtain rfl : p = e := by omega
    rw [scanFrom_step _ he, parseStep_end hend, finish_scanFrom, scan_none _ .invalid]
    rfl
  | succ n ih =>
    rw [scanFrom_step _ (by omega), parseStep_within ht (hbefore p le_rfl (by omega))]
    exact ih (by omega) (fun k hk => hbefore k (by omega)) (by omega)

theorem scan_open (ht : t ≠ .none) (p : Nat) (h : ∀ k, p ≤ k → ¬ EndsAt src t k) :
    finish src (scanFrom src ⟨t, r, []⟩ p) = finish src ⟨t, r, []⟩ := by
  by_cases hp : p < src.length
  · rw [scanFrom_step _ hp, parseStep_within ht (h p le_rfl)]
    exact scan_open ht (p + 1) fun k hk => h k (by omega)
  · rw [scanFrom_end _ (not_lt.mp hp)]
termination_by src.length - p

theorem firstEnd_or (src : List Char) (t : CommentType) (p : Nat) :
    (∃ e, FirstEnd src t p e) ∨ ∀ k, p ≤ k → ¬ EndsAt src t k := by
  by_cases h : ∃ k, p ≤ k ∧ EndsAt src t k
  · classical
    obtain ⟨hpe, hend⟩ := Nat.find_spec h
    exact .inl ⟨Nat.find h, hpe, hend, fun k hk hlt hk' => Nat.find_min h hlt ⟨hk, hk'⟩⟩
  · push Not at h
    exact .inr h

theorem codeRanges_line (h : Marker src p '/') :
    codeRanges src p = finish src (scanFrom src ⟨.line, .ofSize p 1, []⟩ (p + 1)) := by
  have hlt := h.lt
  rw [codeRanges, scanFrom_step _ (by omega)]
  simp only [parseStep, if_pos (And.intro h.1 hlt), if_pos h.2]

theorem codeRanges_block (h : Marker src p '*') :
    codeRanges src p = finish src (scanFrom src ⟨.block, .ofSize p 1, []⟩ (p + 1)) := by
  have hlt := h.lt
  have hline : ¬ src[p + 1]? = some '/' := by
    rw [h.2]
    decide
  rw [codeRanges, scanFrom_step _ (by omega)]
  simp only [parseStep, if_pos (And.intro h.1 hlt), if_neg hline, if_pos h.2]

theorem codeRanges_first_ge (p : Nat) : ∀ r ∈ codeRanges src p, p ≤ r.first := by
  intro r hr
  by_cases hp : p < src.length
  · have hcomment : ∀ t : CommentType, t ≠ .none →
        r ∈ finish src (scanFrom src ⟨t, .ofSize p 1, []⟩ (p + 1)) → p ≤ r.first := by
      intro t ht hr
      rcases firstEnd_or src t (p + 1) with ⟨e, he⟩ | hopen
      · rw [scan_comment he] at hr
        rcases mem_cons.mp hr with rfl | hr
        · exact le_rfl
        · have hpe := he.1
          have hge := codeRanges_first_ge (e + 1) r hr
          omega
      · rw [scan_open ht _ hopen] at hr
        cases t with
        | none => exact absurd rfl ht
        | line =>
          cases mem_singleton.mp hr
          exact le_rfl
        | block => cases hr
    by_cases hline : Marker src p '/'
    · exact hcomment .line (by decide) (codeRanges_line hline ▸ hr)
    · by_cases hblock : Marker src p '*'
      · exact hcomment .block (by decide) (codeRanges_block hblock ▸ hr)
      · rw [codeRanges_skip hline hblock] at hr
        have hge := codeRanges_first_ge (p + 1) r hr
        omega
  · rw [codeRanges_end (not_lt.mp hp)] at hr
    cases hr
termination_by src.length - p

end Scan

/-! ## Where both agree -/

section Agree

variable {splices : Bool} {src : List Char} {p : Nat}

theorem nextChar_eq (h : src[p]? ≠ some '\\') : nextChar splices src p = p := by
  rw [nextChar, dif_pos]
  rw [spliceLength, if_neg]
  exact fun hsplice => h hsplice.2

theorem spliceLength_chars {k : Nat} (hk : k < spliceLength splices src p) :
    src[p + k]? = some '\\' ∨ src[p + k]? = some '\r' ∨ src[p + k]? = some '\n' := by
  rw [spliceLength] at hk
  split_ifs at hk with hback htwo hone
  · have hcases : k = 0 ∨ k = 1 ∨ k = 2 := by omega
    rcases hcases with rfl | rfl | rfl
    · exact .inl hback.2
    · exact .inr (.inl htwo.1)
    · exact .inr (.inr htwo.2)
  · have hcases : k = 0 ∨ k = 1 := by omega
    rcases hcases with rfl | rfl
    · exact .inl hback.2
    · exact .inr hone
  · omega
  · omega

theorem nextChar_skipped {k : Nat} (hp : p ≤ k) (hk : k < nextChar splices src p) :
    src[k]? = some '\\' ∨ src[k]? = some '\r' ∨ src[k]? = some '\n' := by
  induction p using nextChar.induct splices src with
  | case1 p h =>
    rw [nextChar, dif_pos h] at hk
    omega
  | case2 p h ih =>
    rw [nextChar, dif_neg h] at hk
    by_cases hnext : p + spliceLength splices src p ≤ k
    · exact ih hnext hk
    · have hchar := @spliceLength_chars splices src p (k - p) (by omega)
      rwa [Nat.add_sub_cancel' hp] at hchar

theorem lineLast_lt (hsrc : 0 < src.length) : lineLast splices src p < src.length := by
  induction p using lineLast.induct splices src with
  | case1 p i h =>
    rw [lineLast, if_pos h]
    omega
  | case2 p i h hlf =>
    rw [lineLast, if_neg h, if_pos hlf]
    exact not_le.mp h
  | case3 p i h hlf hcr hnext =>
    rw [lineLast, if_neg h, if_neg hlf, if_pos hcr, if_pos hnext]
    exact (List.getElem?_eq_some_iff.mp hnext).1
  | case4 p i h hlf hcr hnext =>
    rw [lineLast, if_neg h, if_neg hlf, if_pos hcr, if_neg hnext]
    exact not_le.mp h
  | case5 p i h hlf hcr ih =>
    rw [lineLast, if_neg h, if_neg hlf, if_neg hcr]
    exact ih

theorem nextChar_le {k : Nat} (hp : p ≤ k) (hk : src[k]? = some '*' ∨ src[k]? = some '/') :
    nextChar splices src p ≤ k := by
  by_contra hlt
  have hskipped := nextChar_skipped hp (not_le.mp hlt)
  rcases hk with hk | hk <;> rw [hk] at hskipped <;> revert hskipped <;> decide

theorem nextChar_slash (h : src[p]? = some '/') : nextChar splices src p = p := by
  refine nextChar_eq ?_
  rw [h]
  decide

theorem blockLast_before {k : Nat} (hp : p ≤ k) (hstar : src[k]? = some '*')
    (hslash : src[k + 1]? = some '/') :
    ∃ l, blockLast splices src p = some l ∧ l ≤ k + 1 := by
  induction p using blockLast.induct splices src with
  | case1 p i h =>
    have hi : i ≤ k := nextChar_le hp (.inl hstar)
    have hk := (List.getElem?_eq_some_iff.mp hstar).1
    omega
  | case2 p i j h hend =>
    rw [blockLast, if_neg h, if_pos hend]
    exact ⟨j, rfl, nextChar_le (Nat.succ_le_succ (nextChar_le hp (.inl hstar))) (.inr hslash)⟩
  | case3 p i j h hend ih =>
    have hi : i ≤ k := nextChar_le hp (.inl hstar)
    rw [blockLast, if_neg h, if_neg hend]
    rcases hi.eq_or_lt with heq | hlt
    · have hj : j = i + 1 := nextChar_slash (by rwa [heq])
      exact absurd ⟨by rwa [heq], by rwa [hj, heq]⟩ hend
    · exact ih hlt

theorem blockLast_slash {l : Nat} (hl : blockLast splices src p = some l) :
    p + 1 ≤ l ∧ src[l]? = some '/' := by
  induction p using blockLast.induct splices src with
  | case1 p i h =>
    rw [blockLast, if_pos h] at hl
    cases hl
  | case2 p i j h hend =>
    have hi : p ≤ i := nextChar_ge splices src p
    have hj : i + 1 ≤ j := nextChar_ge splices src (i + 1)
    rw [blockLast, if_neg h, if_pos hend] at hl
    cases hl
    exact ⟨le_trans (by omega) hj, hend.2⟩
  | case3 p i j h hend ih =>
    have hi : p ≤ i := nextChar_ge splices src p
    rw [blockLast, if_neg h, if_neg hend] at hl
    obtain ⟨hge, hslash⟩ := ih hl
    exact ⟨by omega, hslash⟩

/-- The scan sees the comment as GLSL does: its marker is not taken apart by a line
continuation. A line comment has no line feed before its end, and ends with one or with the
code. A block comment does not go on with a slash, and the two characters of its end are
not taken apart either; one without an end goes on with a slash with which the code ends. -/
def Plain (src : List Char) (c : GlslComment) : Prop :=
  match c.kind with
  | .line =>
    src[c.first + 1]? = some '/' ∧
      (∀ k, c.first < k → k < c.last → src[k]? ≠ some '\n') ∧
      (src[c.last]? = some '\n' ∨ c.last + 1 = src.length)
  | .block =>
    src[c.first + 1]? = some '*' ∧ src[c.first + 2]? ≠ some '/' ∧ src[c.last - 1]? = some '*'
  | .openBlock =>
    src[c.first + 1]? = some '*' ∧ src[c.first + 2]? = some '/' ∧ c.last = c.first + 2

theorem codeRanges_skipped {q : Nat} (hpq : p ≤ q) (h : ∀ k, p ≤ k → k < q → src[k]? ≠ some '/') :
    codeRanges src p = codeRanges src q := by
  induction hn : q - p generalizing p with
  | zero => rw [show p = q by omega]
  | succ n ih =>
    have hp := h p le_rfl (by omega)
    rw [codeRanges_skip (fun hmarker => hp hmarker.1) (fun hmarker => hp hmarker.1)]
    exact ih (by omega) (fun k hk => h k (by omega)) (by omega)

theorem codeRanges_nextChar (p : Nat) :
    codeRanges src p = codeRanges src (nextChar splices src p) := by
  refine codeRanges_skipped (nextChar_ge splices src p) ?_
  intro k hk hlt
  rcases nextChar_skipped hk hlt with h | h | h <;> rw [h] <;> decide

section Line

variable {i l e : Nat}

theorem plain_line_iff (hmarker : Marker src i '/') (hl : i + 1 ≤ l)
    (he : FirstEnd src .line (i + 1) e) : Plain src ⟨.line, i, l⟩ ↔ e = l := by
  obtain ⟨hie, hend, hbefore⟩ := he
  have helt := hend.lt
  constructor
  · rintro ⟨-, hnone, hlast⟩
    rcases lt_trichotomy e l with hlt | heq | hgt
    · exact absurd hend (hnone e (by dsimp only; omega) hlt)
    · exact heq
    · rcases hlast with hlf | hlen
      · exact absurd hlf (hbefore l hl hgt)
      · dsimp only at hlen
        omega
  · rintro rfl
    exact ⟨hmarker.2, fun k hk => hbefore k (by exact hk), .inl hend⟩

theorem plain_openLine_iff (hmarker : Marker src i '/') (hl : l < src.length)
    (hnone : ∀ k, i + 1 ≤ k → ¬ EndsAt src .line k) (hil : i + 1 ≤ l) :
    Plain src ⟨.line, i, l⟩ ↔ l = src.length - 1 := by
  constructor
  · rintro ⟨-, -, hlf | hlen⟩
    · exact absurd hlf (hnone l hil)
    · dsimp only at hlen
      omega
  · intro heq
    exact ⟨hmarker.2, fun k hk _ => hnone k hk, .inr (by dsimp only; omega)⟩

end Line

section Block

variable {i l e : Nat}

/-- The first end of a block comment is past its star, and is a star and a slash. -/
theorem FirstEnd.block_pair (hmarker : Marker src i '*') (he : FirstEnd src .block (i + 1) e) :
    i + 2 ≤ e ∧ src[e - 1]? = some '*' ∧ src[e]? = some '/' := by
  obtain ⟨hie, ⟨hslash, -, hstar⟩, -⟩ := he
  refine ⟨?_, hstar, hslash⟩
  by_contra hlt
  obtain rfl : e = i + 1 := by omega
  rw [hmarker.2] at hslash
  cases hslash

theorem plain_block_iff (hmarker : Marker src i '*') (hl : blockLast splices src (i + 2) = some l)
    (he : FirstEnd src .block (i + 1) e) : Plain src ⟨.block, i, l⟩ ↔ e = l := by
  obtain ⟨hge, hslash⟩ := blockLast_slash hl
  obtain ⟨hie, hstar, hend⟩ := he.block_pair hmarker
  have hbefore := he.2.2
  constructor
  · rintro ⟨-, hopen, hclose⟩
    rcases lt_trichotomy e l with hlt | heq | hgt
    · -- the scan can only have been stopped by the star of the beginning
      have hpast : e ≠ i + 2 := by
        rintro rfl
        exact hopen hend
      obtain ⟨l', hl', hle⟩ := @blockLast_before splices src (i + 2) (e - 1) (by omega) hstar
        (by rwa [Nat.sub_add_cancel (by omega)])
      cases hl.symm.trans hl'
      omega
    · exact heq
    · exact absurd ⟨hslash, by omega, hclose⟩ (hbefore l (by omega) hgt)
  · rintro rfl
    refine ⟨hmarker.2, ?_, hstar⟩
    intro hopen
    exact hbefore (i + 2) (by omega) (by omega) ⟨hopen, by omega, hmarker.2⟩

theorem plain_openBlock_iff (hmarker : Marker src i '*')
    (hl : blockLast splices src (i + 2) = none) (he : FirstEnd src .block (i + 1) e) :
    e = i + 2 ∧ (Plain src ⟨.openBlock, i, l⟩ ↔ e = l) := by
  obtain ⟨hie, hstar, hend⟩ := he.block_pair hmarker
  have heq : e = i + 2 := by
    by_contra hne
    obtain ⟨l', hl', -⟩ := @blockLast_before splices src (i + 2) (e - 1) (by omega) hstar
      (by rwa [Nat.sub_add_cancel (by omega)])
    cases hl.symm.trans hl'
  subst heq
  refine ⟨rfl, ?_⟩
  constructor
  · rintro ⟨-, -, hlast⟩
    exact hlast.symm
  · rintro rfl
    exact ⟨hmarker.2, hend, rfl⟩

theorem not_plain_block {kind : CommentKind} (hkind : kind ≠ .line) (hmarker : Marker src i '*')
    (hl : kind = .block → blockLast splices src (i + 2) = some l)
    (hnone : ∀ k, i + 1 ≤ k → ¬ EndsAt src .block k) : ¬ Plain src ⟨kind, i, l⟩ := by
  intro hplain
  cases kind with
  | line => exact hkind rfl
  | block =>
    obtain ⟨hge, hslash⟩ := blockLast_slash (hl rfl)
    exact hnone l (by omega) ⟨hslash, by omega, hplain.2.2⟩
  | openBlock => exact hnone (i + 2) (by omega) ⟨hplain.2.1, by omega, hmarker.2⟩

end Block

section Comment

variable {i j : Nat} {c : GlslComment} {rest : List GlslComment}

theorem split_agrees (hsplit : src[i + 1]? = some '\\') (hfirst : c.first = i) :
    codeRanges src i = (c :: rest).map GlslComment.range ↔ ∀ c' ∈ c :: rest, Plain src c' := by
  have hskip : codeRanges src i = codeRanges src (i + 1) :=
    codeRanges_skip (fun h => by cases hsplit.symm.trans h.2)
      (fun h => by cases hsplit.symm.trans h.2)
  refine iff_of_false ?_ ?_
  · intro heq
    rw [hskip] at heq
    have hge := codeRanges_first_ge (i + 1) c.range (by rw [heq]; exact mem_cons_self)
    change i + 1 ≤ c.first at hge
    omega
  · intro hplain
    have hc := hplain c mem_cons_self
    obtain ⟨kind, first, last⟩ := c
    cases hfirst
    cases kind with
    | line | block | openBlock => cases hsplit.symm.trans hc.1

/-- A comment of both, if it has the same end, and then the rest. -/
theorem cons_agrees {e : Nat} (hplain : Plain src c ↔ e = c.last)
    (hrest : codeRanges src (c.last + 1) = rest.map GlslComment.range ↔ ∀ c' ∈ rest, Plain src c') :
    ⟨c.first, e⟩ :: codeRanges src (e + 1) = (c :: rest).map GlslComment.range ↔
      ∀ c' ∈ c :: rest, Plain src c' := by
  rw [map_cons, cons.injEq, forall_mem_cons, hplain, GlslComment.range,
    Range.mk.injEq, and_iff_right rfl]
  refine and_congr_right fun heq => ?_
  rw [heq, hrest]

theorem line_agrees {l : Nat} (hmarker : Marker src i '/') (hil : i + 1 ≤ l) (hl : l < src.length)
    (hrest : codeRanges src (l + 1) = rest.map GlslComment.range ↔ ∀ c ∈ rest, Plain src c)
    (hend : src.length ≤ l + 1 → rest = []) :
    codeRanges src i = (⟨.line, i, l⟩ :: rest).map GlslComment.range ↔
      ∀ c ∈ (⟨.line, i, l⟩ : GlslComment) :: rest, Plain src c := by
  rw [codeRanges_line hmarker]
  rcases firstEnd_or src .line (i + 1) with ⟨e, he⟩ | hnone
  · rw [scan_comment he]
    exact cons_agrees (plain_line_iff hmarker hil he) hrest
  · rw [scan_open (by decide) _ hnone, forall_mem_cons,
      plain_openLine_iff hmarker hl hnone hil]
    change [(⟨i, src.length - 1⟩ : Range)] = _ ↔ _
    rw [map_cons, cons.injEq, GlslComment.range, Range.mk.injEq, and_iff_right rfl,
      eq_comm]
    refine and_congr_right fun heq => ?_
    dsimp only at heq
    rw [hend (by omega)]
    simp

theorem block_agrees {l : Nat} (hmarker : Marker src i '*')
    (hl : blockLast splices src (i + 2) = some l)
    (hrest : codeRanges src (l + 1) = rest.map GlslComment.range ↔ ∀ c ∈ rest, Plain src c) :
    codeRanges src i = (⟨.block, i, l⟩ :: rest).map GlslComment.range ↔
      ∀ c ∈ (⟨.block, i, l⟩ : GlslComment) :: rest, Plain src c := by
  rw [codeRanges_block hmarker]
  rcases firstEnd_or src .block (i + 1) with ⟨e, he⟩ | hnone
  · rw [scan_comment he]
    exact cons_agrees (plain_block_iff hmarker hl he) hrest
  · rw [scan_open (by decide) _ hnone]
    refine iff_of_false (cons_ne_nil _ _).symm ?_
    intro hplain
    exact not_plain_block (by decide) hmarker (fun _ => hl) hnone
      (hplain _ mem_cons_self)

theorem openBlock_agrees (hmarker : Marker src i '*')
    (hl : blockLast splices src (i + 2) = none) :
    codeRanges src i = [(⟨.openBlock, i, src.length - 1⟩ : GlslComment)].map GlslComment.range ↔
      ∀ c ∈ [(⟨.openBlock, i, src.length - 1⟩ : GlslComment)], Plain src c := by
  rw [codeRanges_block hmarker]
  rcases firstEnd_or src .block (i + 1) with ⟨e, he⟩ | hnone
  · rw [scan_comment he]
    refine @cons_agrees src ⟨.openBlock, i, src.length - 1⟩ [] e
      (plain_openBlock_iff hmarker hl he).2 ?_
    rw [codeRanges_end (by dsimp only; omega)]
    simp
  · rw [scan_open (by decide) _ hnone]
    refine iff_of_false (cons_ne_nil _ _).symm ?_
    intro hplain
    exact @not_plain_block splices src i _ .openBlock (by decide) hmarker (fun h => by cases h)
      hnone (hplain _ mem_cons_self)

end Comment

theorem glslComments_end (hp : src.length ≤ p) : glslComments splices src p = [] := by
  rw [glslComments, dif_pos (hp.trans (nextChar_ge splices src p))]

theorem nextChar_succ_cases (i : Nat) :
    nextChar splices src (i + 1) = i + 1 ∨ src[i + 1]? = some '\\' := by
  by_cases h : src[i + 1]? = some '\\'
  · exact .inr h
  · exact .inl (nextChar_eq h)

theorem codeRanges_eq_iff (p : Nat) :
    codeRanges src p = (glslComments splices src p).map GlslComment.range ↔
      ∀ c ∈ glslComments splices src p, Plain src c := by
  induction p using glslComments.induct splices src with
  | case1 p i h =>
    rw [glslComments, dif_pos h, @codeRanges_nextChar splices, codeRanges_end h]
    simp
  | case2 p i j h hmarker ih =>
    have hij : i + 1 ≤ j := nextChar_ge splices src (i + 1)
    have hj := (List.getElem?_eq_some_iff.mp hmarker.2).1
    have hge := @lineLast_ge splices src (j + 1) hj
    rw [glslComments, dif_neg h, if_pos hmarker, @codeRanges_nextChar splices]
    rcases @nextChar_succ_cases splices src i with heq | hsplit
    · exact line_agrees ⟨hmarker.1, heq ▸ hmarker.2⟩ (le_trans hij (Nat.le_of_succ_le_succ hge))
        (lineLast_lt (by omega)) ih glslComments_end
    · exact split_agrees hsplit rfl
  | case3 p i j h hline hblock l hl ih =>
    rw [glslComments, dif_neg h, if_neg hline, if_pos hblock, @codeRanges_nextChar splices]
    split
    · next l' hl' =>
      cases hl.symm.trans hl'
      rcases @nextChar_succ_cases splices src i with heq | hsplit
      · have hj : j = i + 1 := heq
        exact block_agrees ⟨hblock.1, hj ▸ hblock.2⟩ (hj ▸ hl) ih
      · exact split_agrees hsplit rfl
    · next hl' => cases hl.symm.trans hl'
  | case4 p i j h hline hblock hl =>
    rw [glslComments, dif_neg h, if_neg hline, if_pos hblock, @codeRanges_nextChar splices]
    split
    · next l' hl' => cases hl.symm.trans hl'
    · rcases @nextChar_succ_cases splices src i with heq | hsplit
      · have hj : j = i + 1 := heq
        exact openBlock_agrees ⟨hblock.1, hj ▸ hblock.2⟩ (hj ▸ hl)
      · exact split_agrees hsplit rfl
  | case5 p i j h hline hblock ih =>
    rw [glslComments, dif_neg h, if_neg hline, if_neg hblock, @codeRanges_nextChar splices]
    have hskip : codeRanges src i = codeRanges src (i + 1) := by
      refine codeRanges_skip ?_ ?_
      · intro hmarker
        have hj : j = i + 1 := nextChar_slash hmarker.2
        exact hline ⟨hmarker.1, by rw [hj]; exact hmarker.2⟩
      · intro hmarker
        have hj : j = i + 1 := nextChar_eq (by rw [hmarker.2]; decide)
        exact hblock ⟨hmarker.1, by rw [hj]; exact hmarker.2⟩
    rw [hskip]
    exact ih

end Agree

/-! ## Positions and searches -/

/-- The code of a shader. Its length is a `size_t`. -/
structure ShaderSource where
  chars : List Char
  length_lt : chars.length < 2 ^ 64

/-- What is searched for to find out if a shader has several render targets. -/
def renderTargetNames : List (List Char) := ["love_RenderTargets".toList, "love_Canvases".toList]

/-- The character at `i` is commented out. -/
def InGlslComment (splices : Bool) (src : List Char) (i : Nat) : Prop :=
  ∃ c ∈ glslComments splices src 0, c.first ≤ i ∧ i ≤ c.last

/-- The comments of a shader are detected as GLSL has them. -/
structure DetectsComments (splices : Bool) (src : ShaderSource) : Prop where
  ranges : parseComments src.chars = (glslComments splices src.chars 0).map GlslComment.range
  positions : ∀ i < 2 ^ 64, inComment i (parseComments src.chars) = true ↔
    InGlslComment splices src.chars i
  searches : ∀ str ∈ renderTargetNames, ∀ hstr : str ≠ [],
    textSearch src.chars str hstr (parseComments src.chars) = true ↔
      ∃ i, OccursAt str src.chars i ∧ ¬ InGlslComment splices src.chars i

section Detects

variable {splices : Bool} {src str : List Char} {comments : List Range}

theorem inComment_iff {i : Nat} (hi : i < 2 ^ 64) :
    inComment i comments = true ↔ ∃ r ∈ comments, r.first ≤ i ∧ i ≤ r.last := by
  have hlast : (Range.ofSize i 1).last = i := by
    rw [Range.ofSize]
    dsimp only
    omega
  rw [inComment, any_eq_true]
  refine exists_congr fun r => and_congr_right fun _ => ?_
  rw [Range.contains, hlast, Bool.and_eq_true, decide_eq_true_iff, decide_eq_true_iff]
  rfl

/-- The search comes across each place of a text that does not overlap itself. -/
theorem textSearchFrom_iff (hstr : str ≠ [])
    (hborder : ∀ k < str.length, 0 < k → ¬ str.drop k <+: str) (start : Nat) :
    textSearchFrom src str hstr comments start = true ↔
      ∃ i, start ≤ i ∧ OccursAt str src i ∧ inComment i comments = false := by
  rw [textSearchFrom]
  split
  · next hnone =>
    refine iff_of_false Bool.false_ne_true ?_
    rintro ⟨i, hi, hoccurs, -⟩
    exact findFrom_eq_none.mp hnone i hi (hoccurs.lt_length hstr).le hoccurs
  · next found hsome =>
    obtain ⟨⟨hfound, hlen⟩, hoccurs, hbefore⟩ := findFrom_eq_some.mp hsome
    have hpos := length_pos_iff.mpr hstr
    by_cases hin : inComment found comments = true
    · rw [hin, if_neg (by decide), textSearchFrom_iff hstr hborder (found + str.length)]
      constructor
      · rintro ⟨i, hi, hrest⟩
        exact ⟨i, by omega, hrest⟩
      · rintro ⟨i, hi, hoccurs', hout⟩
        refine ⟨i, ?_, hoccurs', hout⟩
        -- it is neither before what was found nor within it
        by_contra hlt
        rcases lt_trichotomy i found with hless | heq | hmore
        · exact hbefore i hi hless hoccurs'
        · rw [heq, hin] at hout
          cases hout
        · refine hborder (i - found) (by omega) (by omega) (hoccurs.overlap ?_)
          rwa [Nat.add_sub_cancel' hmore.le]
    · rw [Bool.not_eq_true] at hin
      rw [hin, if_pos (by decide)]
      exact iff_of_true rfl ⟨found, hfound, hoccurs, hin⟩
termination_by src.length + 1 - start

theorem renderTargetNames_borders : ∀ str ∈ renderTargetNames,
    ∀ k < str.length, 0 < k → ¬ str.drop k <+: str := by decide

/-- The comments are detected as GLSL has them exactly if the scan sees each of them. -/
theorem detectsComments_iff (splices : Bool) (src : ShaderSource) :
    DetectsComments splices src ↔
      ∀ c ∈ glslComments splices src.chars 0, Plain src.chars c := by
  rw [← codeRanges_eq_iff, ← parseComments_eq]
  constructor
  · exact fun h => h.ranges
  · intro hranges
    have hpositions : ∀ i < 2 ^ 64, inComment i (parseComments src.chars) = true ↔
        InGlslComment splices src.chars i := by
      intro i hi
      rw [inComment_iff hi, hranges, InGlslComment]
      simp only [mem_map, GlslComment.range, exists_exists_and_eq_and]
    refine ⟨hranges, hpositions, ?_⟩
    intro str hmem hstr
    rw [textSearch, textSearchFrom_iff hstr (renderTargetNames_borders str hmem)]
    refine exists_congr fun i => ?_
    rw [and_iff_right (Nat.zero_le i)]
    refine and_congr_right fun hoccurs => ?_
    have hi := (hoccurs.lt_length hstr).trans src.length_lt
    rw [← hpositions i hi, Bool.not_eq_true]

/-- A comment that goes on with a slash. -/
def slashed : ShaderSource := ⟨"/*/ a */".toList, by decide⟩

/-- It is taken to end with that slash. -/
theorem not_detectsComments_slashed : ¬ DetectsComments false slashed := by
  intro h
  have hplain := (@codeRanges_eq_iff false _ 0).mp (parseComments_eq ▸ h.ranges)
  have hi : nextChar false slashed.chars 0 = 0 := nextChar_eq (by decide)
  have hj : nextChar false slashed.chars 1 = 1 := nextChar_eq (by decide)
  rw [glslComments, hi, dif_neg (by decide), Nat.zero_add, hj, if_neg (by decide),
    if_pos (by decide)] at hplain
  split at hplain
  · exact (hplain _ mem_cons_self).2.1 rfl
  · exact absurd (hplain _ mem_cons_self).2.2 (by decide)

end Detects

end Lhatove.Graphics.Glsl
