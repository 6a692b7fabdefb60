import Mathlib.Tactic

/-!
# Rows that are copied

Memory of so many cells, and copies that stay within it.

- `Memory.copy`: one copy;
- `copyRows`: rows that are next to each other, to rows that are a stride apart;
- `copyRows_rows`: what is then where.
-/

namespace Lhatove

/-- Memory of `size` cells. -/
structure Memory (α : Type*) where
  size : Nat
  cell : Nat → α

namespace Memory

variable {α : Type*}

/-- `n` cells are copied; outside of either memory there is no result. -/
def copy (dest : Memory α) (offset : Nat) (source : Memory α) (start n : Nat) :
    Option (Memory α) :=
  if offset + n ≤ dest.size ∧ start + n ≤ source.size then
    some ⟨dest.size, fun a =>
      if offset ≤ a ∧ a < offset + n then source.cell (start + (a - offset)) else dest.cell a⟩
  else none

/-- So many rows are copied, of a tight source to rows `stride` apart. -/
def copyRows (dest : Memory α) (offset : Nat) (source : Memory α) (start stride rowsize : Nat) :
    Nat → Option (Memory α)
  | 0 => some dest
  | rows + 1 =>
    (dest.copy offset source start rowsize).bind fun dest =>
      copyRows dest (offset + stride) source (start + rowsize) stride rowsize rows

/-- The rows of the source are where they should be, and all else is as it was. -/
structure HasRows (dest dest' source : Memory α) (offset start stride rowsize rows : Nat) :
    Prop where
  size : dest'.size = dest.size
  copied : ∀ i < rows, ∀ k < rowsize,
    dest'.cell (offset + i * stride + k) = source.cell (start + i * rowsize + k)
  kept : ∀ a, (∀ i < rows, a < offset + i * stride ∨ offset + i * stride + rowsize ≤ a) →
    dest'.cell a = dest.cell a

variable {dest source : Memory α} {offset start stride rowsize rows : Nat}

theorem copy_eq (hdest : offset + rowsize ≤ dest.size) (hsource : start + rowsize ≤ source.size) :
    dest.copy offset source start rowsize = some ⟨dest.size, fun a =>
      if offset ≤ a ∧ a < offset + rowsize then source.cell (start + (a - offset))
      else dest.cell a⟩ := if_pos ⟨hdest, hsource⟩

theorem copyRows_rows (hstride : rowsize ≤ stride)
    (hdest : rows = 0 ∨ offset + (rows - 1) * stride + rowsize ≤ dest.size)
    (hsource : start + rows * rowsize ≤ source.size) :
    ∃ dest', dest.copyRows offset source start stride rowsize rows = some dest' ∧
      HasRows dest dest' source offset start stride rowsize rows := by
  induction rows generalizing dest offset start with
  | zero => exact ⟨dest, rfl, rfl, fun i hi => absurd hi (Nat.not_lt_zero i), fun _ _ => rfl⟩
  | succ rows ih =>
    have hend : offset + rows * stride + rowsize ≤ dest.size := by
      simpa using hdest
    rw [Nat.succ_mul] at hsource
    rw [copyRows, copy_eq (by omega) (by omega), Option.bind_some]
    obtain ⟨dest', hcopy, hrows⟩ := @ih ⟨dest.size, fun a =>
        if offset ≤ a ∧ a < offset + rowsize then source.cell (start + (a - offset))
        else dest.cell a⟩ (offset + stride) (start + rowsize) (by
      rcases rows with _ | rows
      · exact .inl rfl
      · right
        rw [Nat.succ_mul] at hend
        show offset + stride + (rows + 1 - 1) * stride + rowsize ≤ dest.size
        rw [Nat.add_sub_cancel]
        omega) (by omega)
    refine ⟨dest', hcopy, hrows.size, ?_, ?_⟩
    · intro i hi k hk
      cases i with
      | zero =>
        -- the rows behind it are not in its way
        rw [Nat.zero_mul, Nat.zero_mul, Nat.add_zero, Nat.add_zero,
          hrows.kept _ (fun i _ => .inl (by omega))]
        dsimp only
        rw [if_pos (by omega), Nat.add_sub_cancel_left]
      | succ i =>
        have hrow := hrows.copied i (by omega) k hk
        rw [Nat.succ_mul, Nat.succ_mul, show offset + (i * stride + stride) + k =
          offset + stride + i * stride + k by omega, hrow]
        congr 1
        omega
    · intro a ha
      have hfirst := ha 0 (Nat.succ_pos rows)
      rw [Nat.zero_mul, Nat.add_zero] at hfirst
      rw [hrows.kept a fun i hi => ?_]
      · dsimp only
        rw [if_neg (by omega)]
      · have hlater := ha (i + 1) (by omega)
        rw [Nat.succ_mul] at hlater
        omega

theorem copy_rows (hdest : offset + rows * rowsize ≤ dest.size)
    (hsource : start + rows * rowsize ≤ source.size) :
    ∃ dest', dest.copy offset source start (rows * rowsize) = some dest' ∧
      HasRows dest dest' source offset start rowsize rowsize rows := by
  refine ⟨_, copy_eq hdest hsource, rfl, ?_, ?_⟩
  · intro i hi k hk
    have hrow : (i + 1) * rowsize ≤ rows * rowsize := Nat.mul_le_mul_right rowsize hi
    rw [Nat.succ_mul] at hrow
    dsimp only
    rw [if_pos (by omega)]
    congr 1
    omega
  · intro a ha
    dsimp only
    rw [if_neg]
    rintro ⟨hle, hlt⟩
    -- the row that it is in
    have hpos : 0 < rowsize := by
      rcases Nat.eq_zero_or_pos rowsize with hzero | hpos
      · rw [hzero, Nat.mul_zero] at hlt
        omega
      · exact hpos
    have hin := ha ((a - offset) / rowsize) (Nat.div_lt_of_lt_mul (by rw [Nat.mul_comm]; omega))
    have hmod := Nat.div_add_mod (a - offset) rowsize
    have hless := Nat.mod_lt (a - offset) hpos
    rw [Nat.mul_comm] at hmod
    omega

end Memory

end Lhatove
