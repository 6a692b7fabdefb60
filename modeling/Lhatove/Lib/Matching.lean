import Mathlib.Tactic

/-!
# Matching in order

The elements of a pattern, looked for in a text from left to right: each one is met when all
before it have been.

- `matched`: how many elements of a pattern a text meets;
- `isGreatest_matched`: they are the longest part of the pattern that is a subsequence of the text.
-/

namespace Lhatove

section

variable {α : Type*} [DecidableEq α]

/-- One more element of the text, after `n` of the pattern. -/
def matchOne (pattern : List α) (n : Nat) (a : α) : Nat :=
  if pattern[n]? = some a then n + 1 else n

/-- How many elements of the pattern are met in the text. -/
def matched (pattern text : List α) : Nat := text.foldl (matchOne pattern) 0

theorem matched_concat (pattern text : List α) (a : α) :
    matched pattern (text ++ [a]) = matchOne pattern (matched pattern text) a := by
  unfold matched
  rw [List.foldl_append]
  rfl

theorem matched_le_concat (pattern text : List α) (a : α) :
    matched pattern text ≤ matched pattern (text ++ [a]) := by
  rw [matched_concat]
  unfold matchOne
  split
  · exact Nat.le_succ _
  · exact Nat.le_refl _

theorem matched_le_length (pattern text : List α) : matched pattern text ≤ pattern.length := by
  induction text using List.reverseRecOn with
  | nil => exact Nat.zero_le _
  | append_singleton text a ih =>
    rw [matched_concat]
    unfold matchOne
    split
    · rename_i hnext
      obtain ⟨hlt, -⟩ := List.getElem?_eq_some_iff.mp hnext
      exact hlt
    · exact ih

theorem take_matched_sublist (pattern text : List α) :
    (pattern.take (matched pattern text)).Sublist text := by
  induction text using List.reverseRecOn with
  | nil => exact .refl _
  | append_singleton text a ih =>
    rw [matched_concat]
    unfold matchOne
    split
    · rename_i hnext
      rw [List.take_add_one, hnext]
      exact ih.append_right [a]
    · exact ih.trans (List.sublist_append_left _ _)

theorem le_matched_of_sublist {pattern text : List α} {n : Nat} (hn : n ≤ pattern.length)
    (h : (pattern.take n).Sublist text) : n ≤ matched pattern text := by
  induction text using List.reverseRecOn generalizing n with
  | nil =>
    have hlength := h.length_le
    rw [List.length_take, Nat.min_eq_left hn] at hlength
    exact hlength
  | append_singleton text a ih =>
    obtain ⟨l, r, hsplit, hl, hr⟩ := List.sublist_append_iff.mp h
    rcases List.sublist_singleton.mp hr with rfl | rfl
    · -- without the last element
      rw [List.append_nil] at hsplit
      rw [← hsplit] at hl
      exact (ih hn hl).trans (matched_le_concat pattern text a)
    · -- the last element is met at last, or has been before
      have hlength := congrArg List.length hsplit
      rw [List.length_take, Nat.min_eq_left hn, List.length_append, List.length_singleton] at hlength
      subst hlength
      have hfront : pattern.take l.length = l := by
        have htake := congrArg (List.take l.length) hsplit
        rwa [List.take_take, Nat.min_eq_left (Nat.le_succ _), List.take_left' rfl] at htake
      have hnext : pattern[l.length]? = some a := by
        have hget := congrArg (fun l' => l'[l.length]?) hsplit
        rw [List.getElem?_take_of_lt (Nat.lt_succ_self _),
          List.getElem?_append_right (Nat.le_refl _), Nat.sub_self] at hget
        exact hget
      have hle := ih (Nat.le_of_succ_le hn) (by rwa [hfront])
      rcases Nat.lt_or_eq_of_le hle with hlt | heq
      · exact Nat.le_trans hlt (matched_le_concat pattern text a)
      · rw [matched_concat, ← heq]
        unfold matchOne
        rw [if_pos hnext]

/-- What is met is the longest part of the pattern that is a subsequence of the text. -/
theorem isGreatest_matched (pattern text : List α) :
    IsGreatest {n | n ≤ pattern.length ∧ (pattern.take n).Sublist text} (matched pattern text) := by
  constructor
  · exact ⟨matched_le_length pattern text, take_matched_sublist pattern text⟩
  · rintro n ⟨hn, h⟩
    exact le_matched_of_sublist hn h

end

end Lhatove
