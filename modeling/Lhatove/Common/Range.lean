import Mathlib.Tactic

/-!
# Ranges

`love::Range`: the first and the last of some indices. The range without any
index has them the other way round.
-/

namespace Lhatove

/-- `Range`; both ends are `size_t`. -/
structure Range where
  first : Nat
  last : Nat
  deriving DecidableEq

namespace Range

/-- The range of no index: the constructor, and `invalidate`. -/
def invalid : Range := ⟨2 ^ 64 - 1, 0⟩

/-- The constructor from an offset and a size. -/
def ofSize (offset size : Nat) : Range := ⟨offset, (offset + size + (2 ^ 64 - 1)) % 2 ^ 64⟩

def isValid (r : Range) : Bool := r.first ≤ r.last

def getOffset (r : Range) : Nat := r.first

def getSize (r : Range) : Nat := r.last - r.first + 1

def contains (r other : Range) : Bool := r.first ≤ other.first && other.last ≤ r.last

def intersects (r other : Range) : Bool := !(r.first > other.last || r.last < other.first)

/-- `encapsulate(index)` -/
def encapsulate (r : Range) (index : Nat) : Range := ⟨min r.first index, max r.last index⟩

/-- `encapsulate(offset, size)` -/
def encapsulateBytes (r : Range) (offset size : Nat) : Range :=
  ⟨min r.first offset, max r.last ((offset + size + (2 ^ 64 - 1)) % 2 ^ 64)⟩

def intersect (r other : Range) : Range := ⟨max r.first other.first, min r.last other.last⟩

@[simp] theorem invalid_isValid : invalid.isValid = false := rfl

variable {r : Range}

theorem isValid_iff : r.isValid = true ↔ r.first ≤ r.last := decide_eq_true_iff

@[simp] theorem encapsulate_first (r : Range) (index : Nat) :
    (r.encapsulate index).first = min r.first index := rfl

@[simp] theorem encapsulate_last (r : Range) (index : Nat) :
    (r.encapsulate index).last = max r.last index := rfl

theorem encapsulate_isValid (r : Range) (index : Nat) : (r.encapsulate index).isValid = true := by
  rw [isValid_iff, encapsulate_first, encapsulate_last]
  exact le_trans (min_le_right ..) (le_max_right ..)

/-- An index of a range, where there are any. -/
def Mem (r : Range) (index : Nat) : Prop := r.first ≤ index ∧ index ≤ r.last

variable {index : Nat}

theorem Mem.encapsulate (h : r.Mem index) (index' : Nat) : (r.encapsulate index').Mem index :=
  ⟨le_trans (min_le_left ..) h.1, le_trans h.2 (le_max_left ..)⟩

theorem encapsulate_mem (r : Range) (index : Nat) : (r.encapsulate index).Mem index :=
  ⟨min_le_right .., le_max_right ..⟩

theorem Mem.encapsulateBytes (h : r.Mem index) (offset size : Nat) :
    (r.encapsulateBytes offset size).Mem index :=
  ⟨le_trans (min_le_left ..) h.1, le_trans h.2 (le_max_left ..)⟩

variable {offset size : Nat}

theorem encapsulateBytes_mem (r : Range) (hend : offset + size ≤ 2 ^ 64) (hfirst : offset ≤ index)
    (hlast : index < offset + size) :
    (r.encapsulateBytes offset size).Mem index := by
  refine ⟨le_trans (min_le_right ..) hfirst, le_trans ?_ (le_max_right ..)⟩
  omega

/-- Bytes that are put in a range, below a bound of the range; there are no bytes at 0. -/
theorem encapsulateBytes_last_lt {bound : Nat} (hr : r.last < bound) (hbound : bound ≤ 2 ^ 64)
    (hend : offset + size ≤ bound) (hpos : 0 < offset + size) :
    (r.encapsulateBytes offset size).last < bound := by
  refine max_lt hr ?_
  omega

theorem isValid_of_mem (h : r.Mem index) : r.isValid = true :=
  isValid_iff.mpr (le_trans h.1 h.2)

theorem encapsulate_last_lt {bound : Nat} (hindex : index < bound)
    (h : r = invalid ∨ r.last < bound) : (r.encapsulate index).last < bound := by
  rw [encapsulate_last, max_lt_iff]
  rcases h with rfl | h
  · exact ⟨Nat.zero_lt_of_lt hindex, hindex⟩
  · exact ⟨h, hindex⟩

theorem ofSize_contains {n : Nat} (hsize : size ≤ 2 ^ 64) (hn : 0 < n)
    (h : offset + n ≤ size) : (ofSize 0 size).contains (ofSize offset n) = true := by
  rw [contains, ofSize, ofSize, Bool.and_eq_true, decide_eq_true_iff, decide_eq_true_iff]
  refine ⟨Nat.zero_le _, ?_⟩
  show (offset + n + (2 ^ 64 - 1)) % 2 ^ 64 ≤ (0 + size + (2 ^ 64 - 1)) % 2 ^ 64
  omega

/-- The last index, where the end of a range is a `size_t` or one past all of them. -/
theorem ofSize_last (hpos : 0 < offset + size) (hend : offset + size ≤ 2 ^ 64) :
    (ofSize offset size).last + 1 = offset + size := by
  show (offset + size + (2 ^ 64 - 1)) % 2 ^ 64 + 1 = offset + size
  omega

theorem not_intersects_iff {other : Range} :
    r.intersects other = false ↔ other.last < r.first ∨ r.last < other.first := by
  rw [intersects, Bool.not_eq_false', Bool.or_eq_true, decide_eq_true_iff, decide_eq_true_iff]

end Range

end Lhatove
