import Mathlib.Tactic

/-!
# Sections of a memory

Pieces of a memory that are handed out one behind the other.

- `Section.Inside`, `Section.Apart`: how two sections lie;
- `Fills`: a list of sections is one section, cut up from its front to its back.
-/

namespace Lhatove

/-- `size` bytes from `start` on. -/
structure Section where
  start : Nat
  size : Nat
  deriving DecidableEq

namespace Section

def Inside (s t : Section) : Prop := t.start ≤ s.start ∧ s.start + s.size ≤ t.start + t.size

/-- No byte is in both. -/
def Apart (s t : Section) : Prop := s.start + s.size ≤ t.start ∨ t.start + t.size ≤ s.start

end Section

/-- The sections of the list lie one behind the other, from `start` to `stop`. -/
inductive Fills (start : Nat) : List Section → Nat → Prop
  | nil : Fills start [] start
  | snoc {l : List Section} {stop : Nat} (size : Nat) :
    Fills start l stop → Fills start (l ++ [⟨stop, size⟩]) (stop + size)

namespace Fills

variable {start stop : Nat} {l : List Section}

theorem le (h : Fills start l stop) : start ≤ stop := by
  induction h with
  | nil => exact le_rfl
  | snoc size _ ih => omega

theorem inside (h : Fills start l stop) : ∀ s ∈ l, start ≤ s.start ∧ s.start + s.size ≤ stop := by
  induction h with
  | nil => exact fun s hs => absurd hs List.not_mem_nil
  | snoc size h ih =>
    intro s hs
    rcases List.mem_append.mp hs with hs | hs
    · have := ih s hs
      omega
    · rw [List.mem_singleton] at hs
      subst hs
      exact ⟨h.le, le_rfl⟩

theorem snoc_inv {s : Section} (h : Fills start (l ++ [s]) stop) :
    Fills start l s.start ∧ stop = s.start + s.size := by
  generalize heq : l ++ [s] = sections at h
  cases h with
  | nil => exact absurd heq (by simp)
  | snoc size h =>
    obtain ⟨rfl, hlast⟩ := List.append_inj' heq rfl
    obtain rfl := List.singleton_inj.mp hlast
    exact ⟨h, rfl⟩

theorem extend {s : Section} (h : Fills start (l ++ [s]) stop) (n : Nat) :
    Fills start (l ++ [⟨s.start, s.size + n⟩]) (stop + n) := by
  obtain ⟨hfills, rfl⟩ := h.snoc_inv
  rw [Nat.add_assoc]
  exact hfills.snoc (s.size + n)

/-- **No two sections have a byte in common.** -/
theorem pairwise (h : Fills start l stop) : l.Pairwise Section.Apart := by
  induction h with
  | nil => exact .nil
  | snoc size h ih =>
    refine List.pairwise_append.mpr ⟨ih, List.pairwise_singleton _ _, ?_⟩
    intro s hs t ht
    rw [List.mem_singleton] at ht
    subst ht
    exact .inl (h.inside s hs).2

end Fills

end Lhatove
