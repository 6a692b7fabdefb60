import Mathlib.Tactic

/-!
# Alignment

The least multiple of an alignment that is not below a position: how it moves along with
a start, and what is left of one alignment after another.
-/

namespace Lhatove

/-- The least multiple of `a` from `n` on. -/
def alignUp (n a : Nat) : Nat := (n + (a - 1)) / a * a

theorem dvd_alignUp (n a : Nat) : a ∣ alignUp n a := Dvd.intro_left _ rfl

@[simp] theorem alignUp_one (n : Nat) : alignUp n 1 = n := by simp [alignUp]

section Pos

variable {a b n m k : Nat}

theorem le_alignUp (ha : 0 < a) : n ≤ alignUp n a := by
  have hlt := Nat.lt_div_mul_add (a := n + (a - 1)) ha
  rw [alignUp]
  omega

theorem alignUp_lt (ha : 0 < a) : alignUp n a < n + a := by
  have hle := Nat.div_mul_le_self (n + (a - 1)) a
  rw [alignUp]
  omega

theorem alignUp_le (ha : 0 < a) (hle : n ≤ m) (hdvd : a ∣ m) : alignUp n a ≤ m := by
  obtain ⟨q, rfl⟩ := hdvd
  obtain ⟨p, hp⟩ := dvd_alignUp n a
  have hlt := alignUp_lt (n := n) ha
  rw [hp] at hlt ⊢
  have : a * p < a * (q + 1) := by
    rw [Nat.mul_add]
    omega
  exact Nat.mul_le_mul_left a (Nat.le_of_lt_succ (Nat.lt_of_mul_lt_mul_left this))

theorem alignUp_of_dvd (ha : 0 < a) (h : a ∣ n) : alignUp n a = n :=
  Nat.le_antisymm (alignUp_le ha le_rfl h) (le_alignUp ha)

theorem alignUp_eq (ha : 0 < a) : alignUp n a = k ↔ a ∣ k ∧ n ≤ k ∧ k < n + a := by
  constructor
  · rintro rfl
    exact ⟨dvd_alignUp n a, le_alignUp ha, alignUp_lt ha⟩
  · rintro ⟨hdvd, hle, hlt⟩
    refine Nat.le_antisymm (alignUp_le ha hle hdvd) ?_
    -- two multiples of `a` that are less than `a` apart
    obtain ⟨p, hp⟩ := dvd_alignUp n a
    obtain ⟨q, rfl⟩ := hdvd
    have hn := le_alignUp (n := n) ha
    rw [hp] at hn ⊢
    have : a * q < a * (p + 1) := by
      rw [Nat.mul_add]
      omega
    exact Nat.mul_le_mul_left a (Nat.le_of_lt_succ (Nat.lt_of_mul_lt_mul_left this))

theorem alignUp_add (ha : 0 < a) (hk : a ∣ k) : alignUp (k + n) a = k + alignUp n a := by
  refine Nat.le_antisymm ?_ ?_
  · exact alignUp_le ha (Nat.add_le_add_left (le_alignUp ha) k) (Nat.dvd_add hk (dvd_alignUp n a))
  · have hle : k ≤ alignUp (k + n) a := (Nat.le_add_right k n).trans (le_alignUp ha)
    have hdvd := Nat.dvd_sub (dvd_alignUp (k + n) a) hk
    have hn : n ≤ alignUp (k + n) a - k := by
      have := le_alignUp (n := k + n) ha
      omega
    have := alignUp_le ha hn hdvd
    omega

theorem alignUp_alignUp (ha : 0 < a) (hb : 0 < b) (hab : a ∣ b) :
    alignUp (alignUp n a) b = alignUp n b := by
  refine Nat.le_antisymm ?_ ?_
  · refine alignUp_le hb ?_ (dvd_alignUp n b)
    exact alignUp_le ha (le_alignUp hb) (hab.trans (dvd_alignUp n b))
  · exact alignUp_le hb ((le_alignUp ha).trans (le_alignUp hb)) (dvd_alignUp _ b)

end Pos

end Lhatove
