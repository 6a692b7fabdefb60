import Mathlib.Tactic

/-!
# Integers with few significant bits

Rounding to `p` significant bits, to the even one of two that are nearest, and
which integers are kept by it.
-/

namespace Lhatove

/-- The quotient that is nearest, of two the even one. -/
def divEven (n d : Nat) : Nat :=
  if 2 * (n % d) < d then n / d
  else if d < 2 * (n % d) then n / d + 1
  else n / d + n / d % 2

/-- The weight of the last of `p` significant bits. -/
def lastBit (p n : Nat) : Nat := 2 ^ (n.log2 + 1 - p)

/-- The nearest number of `p` significant bits. -/
def roundTo (p n : Nat) : Nat := divEven n (lastBit p n) * lastBit p n

/-- `p` significant bits are enough. -/
def FitsIn (p n : Nat) : Prop := ∃ m k, m < 2 ^ p ∧ n = m * 2 ^ k

theorem lastBit_pos (p n : Nat) : 0 < lastBit p n := Nat.two_pow_pos _

theorem divEven_of_dvd {n d : Nat} (hd : 0 < d) (h : d ∣ n) : divEven n d = n / d := by
  rw [divEven, Nat.mod_eq_zero_of_dvd h, if_pos (by simpa using hd)]

theorem roundTo_eq_iff_dvd (p n : Nat) : roundTo p n = n ↔ lastBit p n ∣ n := by
  constructor
  · intro h
    exact ⟨divEven n (lastBit p n), by rw [Nat.mul_comm]; exact h.symm⟩
  · intro h
    rw [roundTo, divEven_of_dvd (lastBit_pos p n) h, Nat.div_mul_cancel h]

theorem lastBit_dvd_iff (p n : Nat) : lastBit p n ∣ n ↔ FitsIn p n := by
  by_cases hn : n = 0
  · subst hn
    exact ⟨fun _ => ⟨0, 0, Nat.two_pow_pos p, rfl⟩, fun _ => dvd_zero _⟩
  constructor
  · rintro ⟨m, hm⟩
    refine ⟨m, n.log2 + 1 - p, ?_, by rw [Nat.mul_comm]; exact hm⟩
    have hlt : n < 2 ^ (n.log2 + 1) := Nat.lt_log2_self
    by_contra hge
    have hle : 2 ^ (n.log2 + 1 - p) * 2 ^ p ≤ n := by
      calc 2 ^ (n.log2 + 1 - p) * 2 ^ p ≤ 2 ^ (n.log2 + 1 - p) * m :=
            Nat.mul_le_mul_left _ (not_lt.mp hge)
        _ = n := hm.symm
    rw [← pow_add] at hle
    have := hle.trans_lt hlt
    rw [Nat.pow_lt_pow_iff_right one_lt_two] at this
    omega
  · rintro ⟨m, k, hm, rfl⟩
    have hlog : (m * 2 ^ k).log2 < p + k := by
      rw [Nat.log2_lt hn, pow_add]
      exact Nat.mul_lt_mul_of_pos_right hm (Nat.two_pow_pos k)
    exact (pow_dvd_pow 2 (by omega)).trans (dvd_mul_left (2 ^ k) m)

theorem roundTo_eq_iff (p n : Nat) : roundTo p n = n ↔ FitsIn p n :=
  (roundTo_eq_iff_dvd p n).trans (lastBit_dvd_iff p n)

end Lhatove
