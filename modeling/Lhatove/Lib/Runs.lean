import Mathlib.Order.Interval.Finset.Nat
import Mathlib.Data.Nat.Count
import Mathlib.Tactic

/-!
# Runs

Maximal runs of positions, below a bound, at which a predicate holds.

- `scan`: the first position from another one on at which it does not;
- `IsRun`, `runIndex`: a run, and how many begin before it;
- `cutRuns`: runs one after the other, found by scanning;
- `cutRuns_getElem?`: which runs these are.
-/

namespace Lhatove

/-! ## Scanning -/

/-- The first position from `i` on at which `p` does not hold, `k` positions on at most. -/
def scan (p : Nat → Bool) : Nat → Nat → Nat
  | 0, i => i
  | k + 1, i => if p i then scan p k (i + 1) else i

theorem le_scan (p : Nat → Bool) (k i : Nat) : i ≤ scan p k i := by
  induction k generalizing i with
  | zero => exact le_rfl
  | succ k ih =>
    rw [scan]
    split_ifs with h
    · exact le_trans (Nat.le_succ i) (ih (i + 1))
    · exact le_rfl

theorem scan_le (p : Nat → Bool) (k i : Nat) : scan p k i ≤ i + k := by
  induction k generalizing i with
  | zero => exact le_rfl
  | succ k ih =>
    rw [scan]
    split_ifs with h
    · have := ih (i + 1)
      omega
    · omega

theorem holds_of_lt_scan {p : Nat → Bool} {k i j : Nat} (hle : i ≤ j) (hlt : j < scan p k i) :
    p j = true := by
  induction k generalizing i with
  | zero =>
    rw [scan] at hlt
    omega
  | succ k ih =>
    rw [scan] at hlt
    split_ifs at hlt with h
    · rcases Nat.eq_or_lt_of_le hle with rfl | hnext
      · exact h
      · exact ih hnext hlt
    · omega

theorem scan_stops {p : Nat → Bool} {k i : Nat} (h : scan p k i < i + k) :
    p (scan p k i) = false := by
  induction k generalizing i with
  | zero =>
    rw [scan] at h
    omega
  | succ k ih =>
    rw [scan] at h ⊢
    split_ifs at h ⊢ with hp
    · exact ih (by omega)
    · exact Bool.eq_false_iff.mpr hp

/-! ## Runs -/

/-- A maximal run of the positions below `n`: it begins at `s` and ends before `e`. -/
structure IsRun (p : Nat → Bool) (n s e : Nat) : Prop where
  nonempty : s < e
  inside : e ≤ n
  holds : ∀ j, s ≤ j → j < e → p j = true
  before : s = 0 ∨ p (s - 1) = false
  behind : e = n ∨ p e = false

/-- A run begins here. -/
def Begins (p : Nat → Bool) (s : Nat) : Prop := p s = true ∧ (s = 0 ∨ p (s - 1) = false)

instance (p : Nat → Bool) : DecidablePred (Begins p) := fun _ => inferInstanceAs (Decidable (_ ∧ _))

/-- How many runs begin before a position. -/
def runIndex (p : Nat → Bool) (s : Nat) : Nat := Nat.count (Begins p) s

section

variable {p : Nat → Bool} {n s e s' e' : Nat}

theorem IsRun.begins (h : IsRun p n s e) : Begins p s := ⟨h.holds s le_rfl h.nonempty, h.before⟩

theorem IsRun.end_eq (h : IsRun p n s e) (h' : IsRun p n s e') : e = e' := by
  have hlt : ∀ {e e' : Nat}, IsRun p n s e → IsRun p n s e' → ¬ e < e' := by
    intro e e' h h' hlt
    rcases h.behind with rfl | hstop
    · exact absurd h'.inside (not_le.mpr hlt)
    · rw [h'.holds e (le_of_lt h.nonempty) hlt] at hstop
      cases hstop
  exact le_antisymm (not_lt.mp (hlt h' h)) (not_lt.mp (hlt h h'))

theorem IsRun.eq_of_index (h : IsRun p n s e) (h' : IsRun p n s' e')
    (hindex : runIndex p s = runIndex p s') : s = s' ∧ e = e' := by
  have hs := Nat.count_injective h.begins h'.begins hindex
  subst hs
  exact ⟨rfl, h.end_eq h'⟩

theorem IsRun.lt_of_index_lt (h : IsRun p n s e) (h' : IsRun p n s' e')
    (hindex : runIndex p s < runIndex p s') : e < s' := by
  have hs : s < s' := by
    by_contra hle
    exact absurd (Nat.count_monotone (Begins p) (not_lt.mp hle)) (not_le.mpr hindex)
  by_contra hle
  rcases h'.before with rfl | hstop
  · exact absurd hs (Nat.not_lt_zero s)
  · rw [h.holds (s' - 1) (by omega) (by omega)] at hstop
    cases hstop

theorem runIndex_eq_of_none {i j : Nat} (hle : i ≤ j)
    (hnone : ∀ k, i ≤ k → k < j → ¬ Begins p k) : runIndex p j = runIndex p i := by
  induction j, hle using Nat.le_induction with
  | base => rfl
  | succ j hle ih =>
    rw [runIndex, Nat.count_succ, if_neg (hnone j hle (Nat.lt_succ_self j)), Nat.add_zero]
    exact ih fun k hk hlt => hnone k hk (Nat.lt_succ_of_lt hlt)

theorem IsRun.runIndex_end (h : IsRun p n s e) : runIndex p e = runIndex p s + 1 := by
  have hnext : runIndex p (s + 1) = runIndex p s + 1 := by
    rw [runIndex, Nat.count_succ, if_pos h.begins, runIndex]
  rw [← hnext]
  refine runIndex_eq_of_none h.nonempty ?_
  rintro k hk hlt ⟨-, hzero | hstop⟩
  · omega
  · rw [h.holds (k - 1) (by omega) (by omega)] at hstop
    cases hstop

end

/-! ## Cutting -/

/-- Runs below `n`, from `i` on: positions at which `p` does not hold are skipped, and
those at which it does are a run. -/
def cutRuns (p : Nat → Bool) (n : Nat) : Nat → Nat → List (Nat × Nat)
  | 0, _ => []
  | count + 1, i =>
    let s := scan (fun j => !p j) (n - i) i
    let e := scan p (n - s) s
    if e ≤ s then [] else (s, e) :: cutRuns p n count e

section

variable {p : Nat → Bool} {n : Nat}

/-- A position that is in no run, or begins one. -/
def Between (p : Nat → Bool) (n i : Nat) : Prop := i = 0 ∨ i = n ∨ p i = false

theorem IsRun.between_end {s e : Nat} (h : IsRun p n s e) : Between p n e := .inr h.behind

theorem runIndex_skip (i : Nat) :
    runIndex p (scan (fun j => !p j) (n - i) i) = runIndex p i := by
  refine runIndex_eq_of_none (le_scan ..) ?_
  rintro k hk hlt ⟨hp, -⟩
  have hskip := holds_of_lt_scan hk hlt
  rw [hp] at hskip
  cases hskip

/-- What is found behind it, if it is not the end. -/
theorem isRun_scan {i : Nat} (hi : i ≤ n) (hbetween : Between p n i)
    (hlt : scan (fun j => !p j) (n - i) i < n) :
    IsRun p n (scan (fun j => !p j) (n - i) i)
      (scan p (n - scan (fun j => !p j) (n - i) i) (scan (fun j => !p j) (n - i) i)) := by
  have hle := le_scan (fun j => !p j) (n - i) i
  have hfirst := @scan_stops (fun j => !p j) (n - i) i (by omega)
  have hskipped := @holds_of_lt_scan (fun j => !p j) (n - i) i
  generalize scan (fun j => !p j) (n - i) i = s at hlt hle hfirst hskipped ⊢
  have hs : p s = true := by simpa using hfirst
  have hend := scan_le p (n - s) s
  have hstop := @scan_stops p (n - s) s
  have hholds := @holds_of_lt_scan p (n - s) s
  have hpos : s < scan p (n - s) s := by
    obtain ⟨k, hk⟩ : ∃ k, n - s = k + 1 := ⟨n - s - 1, by omega⟩
    rw [hk, scan, if_pos hs]
    exact le_scan p k (s + 1)
  refine ⟨hpos, by omega, fun j => hholds, ?_, ?_⟩
  · rcases Nat.eq_or_lt_of_le hle with rfl | hbehind
    · rcases hbetween with hzero | hn | hfalse
      · exact .inl hzero
      · omega
      · rw [hs] at hfalse
        cases hfalse
    · right
      simpa using hskipped (by omega) (by omega)
  · by_cases hn : scan p (n - s) s = n
    · exact .inl hn
    · exact .inr (hstop (by omega))

theorem not_isRun_of_skipped {i s e : Nat}
    (hn : n ≤ scan (fun j => !p j) (n - i) i) (hindex : runIndex p i ≤ runIndex p s) :
    ¬ IsRun p n s e := by
  intro h
  have hin := h.inside
  have hsome := h.nonempty
  by_cases hle : i ≤ s
  · have hskip := @holds_of_lt_scan (fun j => !p j) (n - i) i s hle (by omega)
    rw [h.begins.1] at hskip
    cases hskip
  · have hbefore : runIndex p s < runIndex p i :=
      Nat.count_strict_mono h.begins (not_le.mp hle)
    omega

/-- **The runs are cut**: the `j`-th is the run before which as many begin. -/
theorem cutRuns_getElem? {count i : Nat} (hi : i ≤ n) (hbetween : Between p n i)
    (j s e : Nat) :
    (cutRuns p n count i)[j]? = some (s, e) ↔
      j < count ∧ IsRun p n s e ∧ runIndex p s = runIndex p i + j := by
  induction count generalizing i j with
  | zero => simp [cutRuns]
  | succ count ih =>
    have hskip := @runIndex_skip p n i
    by_cases hlt : scan (fun j => !p j) (n - i) i < n
    · have hrun := isRun_scan hi hbetween hlt
      rw [cutRuns]
      generalize scan (fun j => !p j) (n - i) i = s₀ at hskip hrun ⊢
      generalize scan p (n - s₀) s₀ = e₀ at hrun ⊢
      rw [if_neg (not_le.mpr hrun.nonempty)]
      have hend := hrun.runIndex_end
      cases j with
      | zero =>
        simp only [List.getElem?_cons_zero, Option.some.injEq, Prod.mk.injEq, Nat.add_zero]
        constructor
        · rintro ⟨rfl, rfl⟩
          exact ⟨Nat.succ_pos count, hrun, hskip⟩
        · rintro ⟨-, h, hindex⟩
          exact hrun.eq_of_index h (hskip.trans hindex.symm)
      | succ j =>
        rw [List.getElem?_cons_succ, ih hrun.inside hrun.between_end, hend, hskip]
        constructor
        all_goals
          rintro ⟨hj, h, hindex⟩
          exact ⟨by omega, h, by omega⟩
    · have hn := not_lt.mp hlt
      have hnil : cutRuns p n (count + 1) i = [] := by
        have hle := scan_le (fun j => !p j) (n - i) i
        rw [cutRuns]
        generalize scan (fun j => !p j) (n - i) i = s₀ at hn hle ⊢
        have : n - s₀ = 0 := by omega
        simp [this, scan]
      rw [hnil]
      constructor
      · intro h
        simp at h
      · rintro ⟨-, h, hindex⟩
        exact absurd h (not_isRun_of_skipped hn (by omega))

end

end Lhatove
