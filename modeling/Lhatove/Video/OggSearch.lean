import Lhatove.Video.OggPages

/-!
# The search over the file

- `pos_inside`: in a file below 2^44 bytes, the middle of an interval that is searched
  on is inside it, also when it is rounded.
- `search_ends`: the search ends if every pass that it comes to does.
- `maps_search`: the search with a demuxer is the search with the pages of its file.
-/

namespace Lhatove.Video

open LoopM (Maps MapsAt repeatM)

/-! ## Rounding -/

theorem roundEven_near {x : ℚ} (hx : 0 ≤ x) : |(FloatValue.roundEven x : ℚ) - x| ≤ 1 / 2 := by
  have hle := Nat.floor_le hx
  have hlt := Nat.lt_floor_add_one x
  rw [FloatValue.roundEven, abs_le]
  split_ifs with hbelow habove
  · constructor <;> linarith
  · push_cast
    constructor <;> linarith
  · have hmod : ((⌊x⌋₊ % 2 : ℕ) : ℚ) ≤ 1 := by exact_mod_cast Nat.le_of_lt_succ (Nat.mod_lt _ two_pos)
    have hmod0 : (0 : ℚ) ≤ ((⌊x⌋₊ % 2 : ℕ) : ℚ) := Nat.cast_nonneg _
    push_cast at hmod hmod0 ⊢
    constructor <;> linarith

/-- A number is rounded by at most one part in 2^53, or half of the least number. -/
theorem toDouble_near (x : ℚ) : |toDouble x - x| ≤ |x| / 2 ^ 53 + 1 / 2 ^ 53 := by
  obtain ⟨e, he⟩ : ∃ e, e = max (-1074) (Int.log 2 |x| - 52) := ⟨_, rfl⟩
  have hpos : (0 : ℚ) < 2 ^ e := zpow_pos two_pos e
  have hstep : (2 : ℚ) ^ e ≤ |x| / 2 ^ 52 + 1 / 2 ^ 52 := by
    have hsmall : (2 : ℚ) ^ (-1074 : ℤ) ≤ 1 / 2 ^ 52 := by
      rw [show (1 : ℚ) / 2 ^ 52 = 2 ^ (-52 : ℤ) by norm_num]
      exact zpow_le_zpow_right₀ one_le_two (by decide)
    have hlarge : (2 : ℚ) ^ (Int.log 2 |x| - 52) ≤ |x| / 2 ^ 52 + 1 / 2 ^ 52 := by
      rw [zpow_sub₀ two_ne_zero, ← add_div]
      have hlog : (2 : ℚ) ^ Int.log 2 |x| ≤ |x| + 1 := by
        rcases (abs_nonneg x).eq_or_lt with hzero | hlt
        · rw [← hzero, Int.log_zero_right]
          norm_num
        · have := Int.zpow_log_le_self one_lt_two hlt
          push_cast at this
          linarith
      exact div_le_div_of_nonneg_right hlog (by norm_num)
    rw [he]
    rcases max_cases (-1074) (Int.log 2 |x| - 52) with ⟨hmax, -⟩ | ⟨hmax, -⟩
    · rw [hmax]
      have := div_nonneg (abs_nonneg x) (show (0 : ℚ) ≤ 2 ^ 52 by norm_num)
      linarith
    · rw [hmax]
      exact hlarge
  have hnear := roundEven_near (div_nonneg (abs_nonneg x) hpos.le)
  have habs : abs ((FloatValue.roundEven (|x| / 2 ^ e) : ℚ) * 2 ^ e - |x|) ≤ 2 ^ e / 2 := by
    have hscaled := mul_le_mul_of_nonneg_right hnear hpos.le
    rw [← abs_of_pos hpos, ← abs_mul, sub_mul, abs_of_pos hpos, div_mul_cancel₀ _ hpos.ne']
      at hscaled
    linarith
  have hbound : (2 : ℚ) ^ e / 2 ≤ |x| / 2 ^ 53 + 1 / 2 ^ 53 := by
    have : |x| / 2 ^ 53 + 1 / 2 ^ 53 = (|x| / 2 ^ 52 + 1 / 2 ^ 52) / 2 := by ring
    rw [this]
    linarith
  refine le_trans ?_ (habs.trans hbound)
  rw [toDouble, ← he]
  split_ifs with hneg
  · rw [abs_of_neg hneg, ← abs_neg]
    exact le_of_eq (congrArg _ (by ring))
  · rw [abs_of_nonneg (le_of_not_gt hneg)]

/-! ## Intervals -/

namespace Interval

/-- The bounds are those of a position in a file below 2^44 bytes, after rounding. -/
def Small (i : Interval) : Prop :=
  0 ≤ i.low ∧ i.low ≤ 2 ^ 44 + 1 ∧ 0 ≤ i.high ∧ i.high ≤ 2 ^ 44 + 1

theorem pos_inside {i : Interval} (hsmall : i.Small) (hwide : i.Wide) :
    i.low + 1 / 1000 ≤ i.pos ∧ i.pos + 1 / 1000 ≤ i.high := by
  obtain ⟨hlow, hlow', hhigh, hhigh'⟩ := hsmall
  have hsum := toDouble_near (i.high + i.low)
  have hhalf := toDouble_near (toDouble (i.high + i.low) / 2)
  have hwidth := toDouble_near (i.high - i.low)
  have hthreshold := toDouble_near (1 / 100)
  rw [Wide, rewindThreshold] at hwide
  rw [pos]
  generalize toDouble (i.high - i.low) = w at *
  generalize toDouble (1 / 100) = t at *
  generalize toDouble (i.high + i.low) = s at *
  generalize toDouble (s / 2) = p at *
  rw [abs_of_nonneg (by linarith : 0 ≤ i.high + i.low), abs_le] at hsum
  have hs : |s / 2| ≤ 2 ^ 44 + 2 := by
    rw [abs_le]
    constructor <;> norm_num at hsum ⊢ <;> linarith
  have hp : |p - s / 2| ≤ (2 ^ 44 + 2) / 2 ^ 53 + 1 / 2 ^ 53 := by
    refine hhalf.trans ?_
    gcongr
  rw [abs_le] at hp
  rw [abs_of_pos (by norm_num : (0 : ℚ) < 1 / 100), abs_le] at hthreshold
  have hwide' : 99 / 10000 ≤ i.high - i.low := by
    rcases abs_cases (i.high - i.low) with ⟨habs, -⟩ | ⟨habs, -⟩ <;> rw [habs, abs_le] at hwidth <;>
      norm_num at hthreshold hwidth ⊢ <;> linarith
  norm_num at hsum hp
  constructor <;> linarith

/-- An interval after a pass with another middle. -/
def Halved (i j : Interval) : Prop :=
  (j.low = i.low ∨ j.low = i.pos) ∧ (j.high = i.high ∨ j.high = i.pos) ∧
    (j.low = i.pos ∨ j.high = i.pos)

theorem Halved.small {i j : Interval} (h : Halved i j) (hsmall : i.Small) (hwide : i.Wide) :
    j.Small := by
  obtain ⟨hlow, hhigh⟩ := pos_inside hsmall hwide
  obtain ⟨h1, h2, h3, h4⟩ := hsmall
  obtain ⟨hl | hl, hh | hh, -⟩ := h <;> rw [Small, hl, hh] <;>
    refine ⟨?_, ?_, ?_, ?_⟩ <;> linarith

theorem Halved.narrower {i j : Interval} (h : Halved i j) (hsmall : i.Small) (hwide : i.Wide) :
    ⌈(j.high - j.low) * 1000⌉₊ < ⌈(i.high - i.low) * 1000⌉₊ := by
  obtain ⟨hlow, hhigh⟩ := pos_inside hsmall hwide
  have hle : (j.high - j.low) * 1000 + 1 ≤ (i.high - i.low) * 1000 := by
    obtain ⟨hl | hl, hh | hh, hm | hm⟩ := h <;> rw [hl] at * <;> rw [hh] at * <;> linarith
  rcases le_or_gt ((j.high - j.low) * 1000) 0 with hneg | hpos
  · rw [Nat.ceil_eq_zero.mpr hneg]
    exact Nat.ceil_pos.mpr (by linarith)
  · rw [Nat.lt_iff_add_one_le, ← Nat.ceil_add_one hpos.le]
    exact Nat.ceil_le_ceil hle

theorem toDouble_natCast {n : Nat} (hn : n < 2 ^ 44) :
    0 ≤ toDouble n ∧ toDouble n ≤ 2 ^ 44 + 1 := by
  have hle : (n : ℚ) ≤ 2 ^ 44 := by exact_mod_cast hn.le
  have hnear := toDouble_near n
  rw [abs_of_nonneg (Nat.cast_nonneg n : (0 : ℚ) ≤ n), abs_le] at hnear
  constructor
  · rw [toDouble, if_neg (not_lt.mpr (Nat.cast_nonneg n))]
    positivity
  · norm_num at hnear ⊢
    linarith

end Interval

/-! ## The search -/

namespace Reader

variable {σ τ Packet Time : Type} {R : Reader σ Packet} {times : Times Time}
variable {getTime : Int → Time} {granulepos : Packet → Int} {target : Time}

theorem turn_yields (pos : ℚ) (i : Interval) :
    (R.turn times getTime granulepos target pos i).Yields fun next =>
      ∀ j, next = .inl j → j = { i with low := pos } ∨ j = { i with high := pos } := by
  refine .bind fun turn => ?_
  cases turn with
  | found => exact .pure nofun
  | later => exact .pure fun j h => .inl (Sum.inl.inj h).symm
  | earlier => exact .pure fun j h => .inr (Sum.inl.inj h).symm

theorem pass_yields (i : Interval) :
    (R.pass times getTime granulepos target i).Yields fun next =>
      ∀ j, next = .inl j → i.Wide ∧ i.Halved j := by
  rw [pass]
  split
  next hwide =>
    refine .bind fun _ => .bind fun _ => .bind fun _ => .bind fun s => ?_
    split
    · refine .bind fun _ => ?_
      split
      · refine .bind fun _ => .bind fun _ => (turn_yields i.pos _).mono fun next h j hj => ?_
        rcases h j hj with rfl | rfl
        · exact ⟨hwide, .inr rfl, .inr rfl, .inl rfl⟩
        · exact ⟨hwide, .inl rfl, .inr rfl, .inr rfl⟩
      · refine .pure fun j hj => ?_
        cases hj
        exact ⟨hwide, .inl rfl, .inr rfl, .inr rfl⟩
    · refine (turn_yields i.pos i).mono fun next h j hj => ?_
      rcases h j hj with rfl | rfl
      · exact ⟨hwide, .inr rfl, .inl rfl, .inl rfl⟩
      · exact ⟨hwide, .inl rfl, .inr rfl, .inr rfl⟩
  · exact .pure nofun

/-- **The search ends** if the passes that it comes to do. -/
theorem search_ends {i : Interval} {s : σ} (hsmall : i.Small)
    (hcovered : LoopM.Covered (R.pass times getTime granulepos target) i s) :
    (R.search times getTime granulepos target i).Ends s := by
  have hturn : ∀ i s, i.Small ∧ LoopM.Covered (R.pass times getTime granulepos target) i s →
      ∃ r t, (R.pass times getTime granulepos target i).result s = some (r, t) ∧
        LoopM.Leads (fun j t =>
          (j.Small ∧ LoopM.Covered (R.pass times getTime granulepos target) j t) ∧
            ⌈(j.high - j.low) * 1000⌉₊ < ⌈(i.high - i.low) * 1000⌉₊)
          (fun _ _ => True) r t := by
    rintro i s ⟨hsmall, hcovered⟩
    obtain ⟨⟨r, t⟩, hr⟩ := LoopM.ends_iff.mp (hcovered (i, s) .refl)
    refine ⟨r, t, hr, ?_⟩
    rcases r with e | j | u
    · trivial
    · obtain ⟨hwide, hhalved⟩ := pass_yields i s _ t hr j rfl
      exact ⟨⟨hhalved.small hsmall hwide, hcovered.next hr⟩, hhalved.narrower hsmall hwide⟩
    · trivial
  obtain ⟨r, t, hr, -⟩ :=
    LoopM.repeatM_ends (fun (i : Interval) (_ : σ) => ⌈(i.high - i.low) * 1000⌉₊) hturn
      ⟨hsmall, hcovered⟩
  exact LoopM.ends_iff.mpr ⟨_, hr⟩

/-! ### Readers that are alike -/

/-- In states with `P`, the second reader reads what the first does. -/
structure Alike (P : σ → Prop) (f : σ → τ) (R : Reader σ Packet) (R' : Reader τ Packet) :
    Prop where
  restart : ∀ pos s, P s → R'.restart pos (f s) = f (R.restart pos s) ∧ P (R.restart pos s)
  readPage : Maps P f R.readPage R'.readPage
  readPacket : ∀ mustSucceed, Maps P f (R.readPacket mustSucceed) (R'.readPacket mustSucceed)
  clearEos : ∀ s, P s → R'.clearEos (f s) = f (R.clearEos s) ∧ P (R.clearEos s)
  isEos : ∀ s, R'.isEos (f s) = R.isEos s
  packets : ∀ s, R'.packets (f s) = R.packets s
  packet : ∀ s, R'.packet (f s) = R.packet s

namespace Alike

variable {P : σ → Prop} {f : σ → τ} {R' : Reader τ Packet}

theorem maps_judge (h : Alike P f R R') :
    Maps P f (R.judge times getTime granulepos target)
      (R'.judge times getTime granulepos target) := by
  intro s hs
  refine .get_bind ?_
  rw [h.packet s]
  dsimp only
  split_ifs <;> exact .pure hs _

theorem maps_packetTurn (h : Alike P f R R') (i : Nat) :
    Maps P f (R.packetTurn times getTime granulepos target i)
      (R'.packetTurn times getTime granulepos target i) := by
  intro s hs
  refine .get_bind ?_
  rw [h.packets s]
  split_ifs with hi hpos
  · exact (h.readPacket true s hs).bind fun _ t ht => h.maps_judge t ht
  · exact h.maps_judge s hs
  · exact .pure hs _

theorem maps_scan (h : Alike P f R R') (turns i : Nat) :
    Maps P f (R.scan times getTime granulepos target turns i)
      (R'.scan times getTime granulepos target turns i) := by
  induction turns generalizing i with
  | zero => exact fun s hs => .pure hs _
  | succ turns ih =>
    intro s hs
    refine (h.maps_packetTurn i s hs).bind fun turn t ht => ?_
    cases turn with
    | none => exact ih (i + 1) t ht
    | some turn => exact .pure ht _

theorem maps_turn (h : Alike P f R R') (pos : ℚ) (i : Interval) :
    Maps P f (R.turn times getTime granulepos target pos i)
      (R'.turn times getTime granulepos target pos i) := by
  intro s hs
  refine (h.maps_scan 256 0 s hs).bind fun turn t ht => ?_
  cases turn <;> exact .pure ht _

theorem maps_pass (h : Alike P f R R') (i : Interval) :
    Maps P f (R.pass times getTime granulepos target i)
      (R'.pass times getTime granulepos target i) := by
  intro s hs
  have hrestart : ∀ (pos : Nat) s, P s → MapsAt P f (LoopM.modify (R.restart pos) :
      LoopM String σ Unit) (LoopM.modify (R'.restart pos)) s :=
    fun pos s hs => .modify (h.restart pos s hs).2 (h.restart pos s hs).1
  rw [pass, pass]
  by_cases hwide : i.Wide
  · rw [if_pos hwide, if_pos hwide]
    refine (hrestart _ s hs).bind fun _ s hs => (h.readPage s hs).bind fun _ s hs =>
      (h.readPacket false s hs).bind fun _ s hs => .get_bind ?_
    rw [h.isEos s]
    by_cases heos : R.isEos s = true
    · rw [if_pos heos, if_pos heos]
      refine (MapsAt.modify (h.clearEos s hs).2 (h.clearEos s hs).1).bind fun _ s hs => ?_
      by_cases hrewind : i.pos < rewindThreshold
      · rw [if_pos hrewind, if_pos hrewind]
        exact (hrestart 0 s hs).bind fun _ s hs => (h.readPacket true s hs).bind fun _ s hs =>
          h.maps_turn i.pos _ s hs
      · rw [if_neg hrewind, if_neg hrewind]
        exact .pure hs _
    · rw [if_neg heos, if_neg heos]
      exact h.maps_turn i.pos i s hs
  · rw [if_neg hwide, if_neg hwide]
    exact .pure hs _

/-- **A search** is the same with readers that are alike. -/
theorem maps_search (h : Alike P f R R') (i : Interval) :
    Maps P f (R.search times getTime granulepos target i)
      (R'.search times getTime granulepos target i) :=
  .repeatM h.maps_pass i

end Alike

end Reader

end Lhatove.Video
