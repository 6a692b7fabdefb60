import Mathlib.Data.List.Infix

/-!
# Patterns in a text

- `OccursAt`: a pattern is in a text from a place on;
- `rfind`, `findFrom`: the last such place, and the first one from a place on;
- `occursAt_window`: a pattern in a part of the text that is looked at.
-/

namespace Lhatove

section Search

variable {α : Type*} (pattern text : List α)

/-- The pattern is in the text from `i` on. -/
def OccursAt (i : Nat) : Prop := pattern <+: text.drop i

/-- The last place of the pattern in the text. -/
def rfind [DecidableEq α] : List α → Option Nat
  | [] => if pattern <+: [] then some 0 else none
  | a :: text =>
    match rfind text with
    | some i => some (i + 1)
    | none => if pattern <+: a :: text then some 0 else none

/-- The first place of the pattern in the text from `start` on. -/
def findFrom [DecidableEq α] (start : Nat) : Option Nat :=
  (List.range' start (text.length + 1 - start)).find? fun i => pattern <+: text.drop i

variable {pattern text}

theorem OccursAt.lt_length {i : Nat} (h : OccursAt pattern text i) (hpattern : pattern ≠ []) :
    i < text.length := by
  by_contra hi
  rw [OccursAt, List.drop_eq_nil_of_le (not_lt.mp hi), List.prefix_nil] at h
  exact hpattern h

/-- Where in the text a pattern of a window is, and how the window holds it. -/
theorem occursAt_window (hpattern : pattern ≠ []) {start size i : Nat} :
    OccursAt pattern ((text.drop start).take size) i ↔
      OccursAt pattern text (start + i) ∧ i + pattern.length ≤ size := by
  have hpos := List.length_pos_iff.mpr hpattern
  rw [OccursAt, OccursAt, List.drop_take, List.drop_drop, List.prefix_take_iff]
  refine and_congr_right fun _ => ?_
  omega

/-- Two places of a pattern overlap only if its end is its beginning, too. -/
theorem OccursAt.overlap {i k : Nat} (hi : OccursAt pattern text i)
    (hk : OccursAt pattern text (i + k)) : pattern.drop k <+: pattern := by
  have hdrop : pattern.drop k <+: text.drop (i + k) := by
    rw [← List.drop_drop]
    exact .drop hi k
  refine List.prefix_of_prefix_length_le hdrop hk ?_
  rw [List.length_drop]
  exact Nat.sub_le ..

variable [DecidableEq α]

theorem rfind_eq_none (hpattern : pattern ≠ []) :
    rfind pattern text = none ↔ ∀ i, ¬ OccursAt pattern text i := by
  induction text with
  | nil =>
    have hnil : ¬ pattern <+: ([] : List α) := fun h => hpattern (List.prefix_nil.mp h)
    rw [rfind, if_neg hnil]
    refine iff_of_true rfl fun i h => ?_
    exact absurd (h.lt_length hpattern) (Nat.not_lt_zero i)
  | cons a text ih =>
    rw [rfind]
    cases hrest : rfind pattern text with
    | some j =>
      rw [hrest] at ih
      refine iff_of_false (Option.some_ne_none _) fun h => ?_
      have hnone := ih.mpr fun i => h (i + 1)
      cases hnone
    | none =>
      have hnone := ih.mp hrest
      constructor
      · intro h i hi
        cases i with
        | zero =>
          rw [if_pos (show pattern <+: a :: text from hi)] at h
          cases h
        | succ i => exact hnone i hi
      · intro h
        exact if_neg (h 0)

theorem rfind_eq_some (hpattern : pattern ≠ []) {i : Nat} :
    rfind pattern text = some i ↔
      OccursAt pattern text i ∧ ∀ j, OccursAt pattern text j → j ≤ i := by
  induction text generalizing i with
  | nil =>
    have hnone := (rfind_eq_none hpattern).mpr fun j (h : OccursAt pattern [] j) =>
      absurd (h.lt_length hpattern) (Nat.not_lt_zero j)
    rw [hnone]
    refine iff_of_false (Option.some_ne_none i).symm ?_
    rintro ⟨h, -⟩
    exact absurd (h.lt_length hpattern) (Nat.not_lt_zero i)
  | cons a text ih =>
    rw [rfind]
    cases hrest : rfind pattern text with
    | some k =>
      have hk := ih.mp hrest
      constructor
      · rintro ⟨⟩
        refine ⟨hk.1, fun j hj => ?_⟩
        cases j with
        | zero => omega
        | succ j => exact Nat.succ_le_succ (hk.2 j hj)
      · rintro ⟨hi, hlast⟩
        cases i with
        | zero => exact absurd (hlast (k + 1) hk.1) (by omega)
        | succ i =>
          have heq := ih.mpr ⟨hi, fun j hj => Nat.le_of_succ_le_succ (hlast (j + 1) hj)⟩
          rw [hrest] at heq
          cases heq
          rfl
    | none =>
      have hnone := (rfind_eq_none hpattern).mp hrest
      constructor
      · intro h
        dsimp only at h
        split_ifs at h with hhead
        cases h
        refine ⟨hhead, fun j hj => ?_⟩
        cases j with
        | zero => exact le_rfl
        | succ j => exact absurd hj (hnone j)
      · rintro ⟨hi, -⟩
        cases i with
        | zero => exact if_pos hi
        | succ i => exact absurd hi (hnone i)

theorem findFrom_eq_some {start i : Nat} :
    findFrom pattern text start = some i ↔
      (start ≤ i ∧ i ≤ text.length) ∧ OccursAt pattern text i ∧
        ∀ j, start ≤ j → j < i → ¬ OccursAt pattern text j := by
  rw [findFrom, List.find?_range'_eq_some, List.mem_range'_1, decide_eq_true_iff]
  have hrange : (start ≤ i ∧ i < start + (text.length + 1 - start)) ↔
      start ≤ i ∧ i ≤ text.length := by omega
  rw [hrange, and_left_comm]
  refine and_congr_right fun _ => and_congr_right fun _ => forall_congr' fun j => ?_
  rw [Bool.not_eq_true', decide_eq_false_iff_not, OccursAt]

theorem findFrom_eq_none {start : Nat} :
    findFrom pattern text start = none ↔
      ∀ j, start ≤ j → j ≤ text.length → ¬ OccursAt pattern text j := by
  rw [findFrom, List.find?_range'_eq_none]
  refine forall_congr' fun j => forall_congr' fun hj => ?_
  rw [Bool.not_eq_true', decide_eq_false_iff_not, OccursAt]
  exact ⟨fun h hle => h (by omega), fun h hlt => h (by omega)⟩

end Search

end Lhatove
