import Lhatove.Data.HashStandard

/-!
# The sines of MD5

Sines of whole numbers of radians, from the power series at 1 and the addition
formulas, in numbers scaled by 2^140.

- `taylor_bound`: cosine and sine of 1;
- `near_turn`: one radian more;
- `MD5.constants_eq`: the table is that of RFC 1321.
-/

namespace Lhatove.Data

/-! ## One radian -/

/-- The first `n` terms of the power series of `exp I`, real and imaginary. -/
def taylor : Nat → ℚ × ℚ
  | 0 => (0, 0)
  | n + 1 =>
    let (c, s) := taylor n
    match n % 4 with
    | 0 => (c + 1 / n.factorial, s)
    | 1 => (c, s + 1 / n.factorial)
    | 2 => (c - 1 / n.factorial, s)
    | _ => (c, s - 1 / n.factorial)

theorem taylor_eq : ∀ n, ∑ m ∈ Finset.range n, Complex.I ^ m / m.factorial =
    ((taylor n).1 : ℂ) + (taylor n).2 * Complex.I
  | 0 => by simp [taylor]
  | n + 1 => by
    have hpow : Complex.I ^ n = Complex.I ^ (n % 4) := Complex.I_pow_eq_pow_mod n
    rw [Finset.sum_range_succ, taylor_eq n, hpow, taylor]
    have hmod : n % 4 < 4 := Nat.mod_lt n (by decide)
    interval_cases n % 4
    · push_cast
      ring
    · push_cast
      ring
    · push_cast
      rw [Complex.I_sq]
      ring
    · push_cast
      rw [Complex.I_pow_three]
      ring

theorem taylor_bound : |Real.cos 1 - (taylor 40).1| ≤ 1 / 2 ^ 140 ∧
    |Real.sin 1 - (taylor 40).2| ≤ 1 / 2 ^ 140 := by
  have hbound := Complex.exp_bound (x := Complex.I) (by simp) (show 0 < 40 by decide)
  rw [taylor_eq, Complex.norm_I, one_pow, one_mul] at hbound
  have hsmall : ((Nat.succ 40 : ℕ) : ℝ) * ((Nat.factorial 40 : ℕ) * (40 : ℕ) : ℝ)⁻¹ ≤
      1 / 2 ^ 140 := by
    norm_num [Nat.factorial]
  have hexp : Complex.exp Complex.I = Real.cos 1 + Real.sin 1 * Complex.I := by
    have := Complex.exp_mul_I 1
    simpa using this
  rw [hexp] at hbound
  generalize Real.cos 1 = x at hbound ⊢
  generalize Real.sin 1 = y at hbound ⊢
  have hre := (Complex.abs_re_le_norm _).trans (hbound.trans hsmall)
  have him := (Complex.abs_im_le_norm _).trans (hbound.trans hsmall)
  constructor
  · simpa using hre
  · simpa using him

/-! ## More radians -/

/-- Cosine and sine of an angle, times 2^140, to within `e`. -/
def Near (e : ℝ) (θ : ℝ) (p : ℤ × ℤ) : Prop :=
  |2 ^ 140 * Real.cos θ - p.1| ≤ e ∧ |2 ^ 140 * Real.sin θ - p.2| ≤ e

/-- The angle of `p` and the angle of `q` after each other. -/
def turn (q p : ℤ × ℤ) : ℤ × ℤ :=
  ((p.1 * q.1 - p.2 * q.2) / 2 ^ 140, (p.2 * q.1 + p.1 * q.2) / 2 ^ 140)

/-- One radian. -/
def radian : ℤ × ℤ := (⌊2 ^ 140 * (taylor 40).1⌋, ⌊2 ^ 140 * (taylor 40).2⌋)

theorem near_radian : Near 2 1 radian := by
  have hnear : ∀ {x : ℝ} {r : ℚ}, |x - r| ≤ 1 / 2 ^ 140 →
      |2 ^ 140 * x - (⌊2 ^ 140 * r⌋ : ℤ)| ≤ 2 := by
    intro x r h
    have hle : ((⌊2 ^ 140 * r⌋ : ℤ) : ℝ) ≤ 2 ^ 140 * r := by
      have := Int.floor_le (2 ^ 140 * r)
      exact_mod_cast this
    have hlt : (2 ^ 140 * r : ℝ) < (⌊2 ^ 140 * r⌋ : ℤ) + 1 := by
      have := Int.lt_floor_add_one (2 ^ 140 * r)
      exact_mod_cast this
    rw [abs_le] at h ⊢
    constructor <;> linarith [h.1, h.2]
  exact ⟨hnear taylor_bound.1, hnear taylor_bound.2⟩

theorem abs_mul_sub_le {S a x u v e d : ℝ} (hx : |x - a| ≤ e) (hu : |u - v| ≤ d)
    (hS : |u| ≤ S) (ha : |a| ≤ 2 * S) : |x * u - a * v| ≤ e * S + 2 * S * d := by
  have he : 0 ≤ e := (abs_nonneg _).trans hx
  calc |x * u - a * v| = |(x - a) * u + a * (u - v)| := by ring_nf
    _ ≤ |x - a| * |u| + |a| * |u - v| := by
      rw [← abs_mul, ← abs_mul]
      exact abs_add_le _ _
    _ ≤ e * S + 2 * S * d :=
      add_le_add (mul_le_mul hx hS (abs_nonneg _) he)
        (mul_le_mul ha hu (abs_nonneg _) ((abs_nonneg _).trans ha))

theorem abs_div_sub_le {x e : ℝ} {n : ℤ} (h : |2 ^ 140 * x - n| ≤ 2 ^ 140 * e) :
    |x - (n / 2 ^ 140 : ℤ)| ≤ e + 1 := by
  have hdiv := Int.mul_ediv_add_emod n ((2 : ℤ) ^ 140)
  have hnonneg := Int.emod_nonneg n (show (2 : ℤ) ^ 140 ≠ 0 by norm_num)
  have hlt := Int.emod_lt_of_pos n (show (0 : ℤ) < 2 ^ 140 by norm_num)
  generalize n / (2 : ℤ) ^ 140 = q at *
  generalize n % (2 : ℤ) ^ 140 = r at *
  have hdiv : (2 : ℝ) ^ 140 * q + r = n := by exact_mod_cast hdiv
  have hnonneg : (0 : ℝ) ≤ r := by exact_mod_cast hnonneg
  have hlt : (r : ℝ) < 2 ^ 140 := by exact_mod_cast hlt
  rw [abs_le] at h ⊢
  constructor <;> linarith [h.1, h.2]

/-- **One radian more**: the error doubles. -/
theorem near_turn {e θ : ℝ} {p : ℤ × ℤ} (he : e ≤ 2 ^ 140) (h : Near e θ p) :
    Near (2 * e + 9) (θ + 1) (turn radian p) := by
  obtain ⟨hcos, hsin⟩ := h
  obtain ⟨hcos₁, hsin₁⟩ := near_radian
  have hscaled : ∀ {x : ℝ}, |x| ≤ 1 → |2 ^ 140 * x| ≤ 2 ^ 140 := fun hx => by
    rw [abs_mul, abs_of_pos (by positivity : (0 : ℝ) < 2 ^ 140)]
    exact mul_le_of_le_one_right (by positivity) hx
  have hdouble : ∀ {x a : ℝ}, |x| ≤ 2 ^ 140 → |x - a| ≤ e → |a| ≤ 2 * 2 ^ 140 := fun hx ha => by
    rw [abs_le] at hx ha ⊢
    constructor <;> linarith [hx.1, hx.2, ha.1, ha.2]
  have hc := hscaled (Real.abs_cos_le_one θ)
  have hs := hscaled (Real.abs_sin_le_one θ)
  have hc₁ := hscaled (Real.abs_cos_le_one 1)
  have hs₁ := hscaled (Real.abs_sin_le_one 1)
  have hcc := abs_mul_sub_le hcos hcos₁ hc₁ (hdouble hc hcos)
  have hss := abs_mul_sub_le hsin hsin₁ hs₁ (hdouble hs hsin)
  have hsc := abs_mul_sub_le hsin hcos₁ hc₁ (hdouble hs hsin)
  have hcs := abs_mul_sub_le hcos hsin₁ hs₁ (hdouble hc hcos)
  rw [show 2 * e + 9 = 2 * e + 8 + 1 by ring]
  refine ⟨abs_div_sub_le ?_, abs_div_sub_le ?_⟩
  · rw [Real.cos_add]
    push_cast
    rw [abs_le] at hcc hss ⊢
    constructor <;> linarith [hcc.1, hcc.2, hss.1, hss.2]
  · rw [Real.sin_add]
    push_cast
    rw [abs_le] at hsc hcs ⊢
    constructor <;> linarith [hsc.1, hsc.2, hcs.1, hcs.2]

/-- `i + 1` radians. -/
def radians : Nat → ℤ × ℤ
  | 0 => radian
  | i + 1 => turn radian (radians i)

theorem near_radians : ∀ i : Nat, i < 64 → Near (2 ^ (i + 4) - 9) (i + 1) (radians i)
  | 0, _ => by
    obtain ⟨hcos, hsin⟩ := near_radian
    have hle : (2 : ℝ) ≤ 2 ^ (0 + 4) - 9 := by norm_num
    rw [Nat.cast_zero, zero_add (1 : ℝ)]
    exact ⟨hcos.trans hle, hsin.trans hle⟩
  | i + 1, hi => by
    have hpow : (2 : ℝ) ^ (i + 4) ≤ 2 ^ 140 :=
      pow_le_pow_right₀ (by norm_num) (by omega)
    have := near_turn (by linarith) (near_radians i (by omega))
    rw [show 2 * ((2 : ℝ) ^ (i + 4) - 9) + 9 = 2 ^ (i + 1 + 4) - 9 by ring] at this
    exact_mod_cast this

/-! ## The table -/

theorem MD5.constants_near : ∀ i < 64,
    (constants.getD i 0).toNat * 2 ^ 140 + 2 ^ 102 ≤ 2 ^ 32 * (radians i).2.natAbs ∧
      2 ^ 32 * (radians i).2.natAbs + 2 ^ 102 < ((constants.getD i 0).toNat + 1) * 2 ^ 140 := by
  decide +kernel

/-- **The table** is that of the sines. -/
theorem MD5.constants_eq {i : Nat} (hi : i < 64) : constants.getD i 0 = Standard.MD5.T (i + 1) := by
  obtain ⟨hlow, hhigh⟩ := constants_near i hi
  have hsin := (near_radians i hi).2
  have hpow : (2 : ℝ) ^ (i + 4) ≤ 2 ^ 70 := pow_le_pow_right₀ (by norm_num) (by omega)
  have habs : |2 ^ 140 * |.sin (i + 1)| - ((radians i).2.natAbs : ℝ)| ≤ 2 ^ 70 := by
    have hcast : ((radians i).2.natAbs : ℝ) = |((radians i).2 : ℝ)| := by
      rw [Nat.cast_natAbs, Int.cast_abs]
    have hscale : (2 : ℝ) ^ 140 * |.sin (i + 1)| = |2 ^ 140 * .sin (i + 1)| := by
      rw [abs_mul, abs_of_pos (by positivity : (0 : ℝ) < 2 ^ 140)]
    rw [hcast, hscale]
    exact (abs_abs_sub_abs_le_abs_sub _ _).trans (hsin.trans (by linarith))
  generalize (radians i).2.natAbs = s at hlow hhigh habs
  have hfloor : ⌊4294967296 * |Real.sin (i + 1)|⌋₊ = (constants.getD i 0).toNat := by
    generalize (constants.getD i 0).toNat = t at hlow hhigh
    rw [abs_le] at habs
    have hlow : (t : ℝ) * 2 ^ 140 + 2 ^ 102 ≤ 2 ^ 32 * s := by exact_mod_cast hlow
    have hhigh : (2 : ℝ) ^ 32 * s + 2 ^ 102 < (t + 1) * 2 ^ 140 := by exact_mod_cast hhigh
    rw [Nat.floor_eq_iff (by positivity)]
    constructor <;> linarith [habs.1, habs.2]
  rw [Standard.MD5.T]
  push_cast
  rw [hfloor, BitVec.ofNat_toNat, BitVec.setWidth_eq]
  rfl

end Lhatove.Data
