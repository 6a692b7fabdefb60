import Mathlib.Tactic

/-!
# Doubly linked lists over arbitrary nodes

A list is closed into a ring by one more node that no cell stands for, `none`:
its successor is the head of the list and its predecessor the tail, and the
null pointers at the two ends point back to it. With that, the assignment
`if (x) x->next = v; else head = v;` of a pointer program is one update of the
successor function at `x`, whatever `x` is.

- `Links.Repr`: the links are those of a given list of nodes;
- `Repr.insertIdx`, `Repr.eraseIdx`, `Repr.set`: what the pointer updates for
  insertion, removal and relocation of a node do to the list represented;
- `Repr.next_eq_some_iff`: the two link maps are mutually inverse on the nodes.
-/

namespace Lhatove

open Function List

universe u

/-- Successor and predecessor of every node; `none` is the ring's own node. -/
structure Links (α : Type u) where
  next : Option α → Option α
  prev : Option α → Option α

namespace Links

variable {α : Type u}

/-- The node in front of position `k` of a list: `none` in front of the first. -/
def before (l : List α) (k : Nat) : Option α := if k = 0 then none else l[k - 1]?

@[simp] theorem before_zero (l : List α) : before l 0 = none := rfl

@[simp] theorem before_succ (l : List α) (k : Nat) : before l (k + 1) = l[k]? := rfl

theorem before_length (l : List α) : before l l.length = l.getLast? := by
  cases l with
  | nil => rfl
  | cons a l => rw [getLast?_eq_getElem?]; rfl

/-- The links are those of the list `l`: at every position, going forward and
going backward agree with it. -/
structure Repr (L : Links α) (l : List α) : Prop where
  nodup : l.Nodup
  next_before : ∀ k ≤ l.length, L.next (before l k) = l[k]?
  prev_getElem? : ∀ k ≤ l.length, L.prev l[k]? = before l k

/-! ## Positions of a list without repetitions -/

theorem getElem?_inj_of_nodup {l : List α} (h : l.Nodup) {j k : Nat} (hj : j ≤ l.length)
    (hk : k ≤ l.length) : l[j]? = l[k]? ↔ j = k := by
  refine ⟨fun hjk => ?_, fun hjk => by rw [hjk]⟩
  rcases Nat.lt_or_ge j l.length with hlt | hge
  · exact (getElem?_inj hlt h).mp hjk
  · rw [getElem?_eq_none hge] at hjk
    have := getElem?_eq_none_iff.mp hjk.symm
    omega

theorem before_inj_of_nodup {l : List α} (h : l.Nodup) {j k : Nat} (hj : j ≤ l.length)
    (hk : k ≤ l.length) : before l j = before l k ↔ j = k := by
  refine ⟨fun hjk => ?_, fun hjk => by rw [hjk]⟩
  cases j with
  | zero =>
    cases k with
    | zero => rfl
    | succ k =>
      rw [before_zero, before_succ, getElem?_eq_getElem (by omega)] at hjk
      cases hjk
  | succ j =>
    cases k with
    | zero =>
      rw [before_zero, before_succ, getElem?_eq_getElem (by omega)] at hjk
      cases hjk
    | succ k =>
      rw [before_succ, before_succ, getElem?_inj_of_nodup h (by omega) (by omega)] at hjk
      rw [hjk]

theorem before_ne_of_not_mem {l : List α} {a : α} (h : a ∉ l) (k : Nat) :
    before l k ≠ some a := by
  intro hk
  unfold before at hk
  split at hk
  · cases hk
  · exact h (mem_of_getElem? hk)

theorem getElem?_ne_of_not_mem {l : List α} {a : α} (h : a ∉ l) (k : Nat) :
    l[k]? ≠ some a := fun hk => h (mem_of_getElem? hk)

theorem mem_eraseIdx_iff_of_nodup {l : List α} (h : l.Nodup) {k : Nat} {a b : α}
    (hk : l[k]? = some a) : b ∈ l.eraseIdx k ↔ b ∈ l ∧ b ≠ a := by
  rw [List.mem_eraseIdx_iff_getElem?]
  constructor
  · rintro ⟨i, hi, hb⟩
    refine ⟨mem_of_getElem? hb, fun hba => hi ?_⟩
    have hlt := (List.getElem?_eq_some_iff.mp hk).1
    have hlt' := (List.getElem?_eq_some_iff.mp hb).1
    exact (getElem?_inj_of_nodup h hlt'.le hlt.le).mp (by rw [hb, hk, hba])
  · rintro ⟨hb, hba⟩
    obtain ⟨i, hi, rfl⟩ := mem_iff_getElem.mp hb
    refine ⟨i, fun hik => hba ?_, getElem?_eq_getElem hi⟩
    subst hik
    exact Option.some.inj ((getElem?_eq_getElem hi).symm.trans hk)

theorem mem_set_iff_of_nodup {l : List α} (h : l.Nodup) {k : Nat} {a b c : α}
    (hk : l[k]? = some a) : c ∈ l.set k b ↔ c = b ∨ c ∈ l ∧ c ≠ a := by
  have hlt := (List.getElem?_eq_some_iff.mp hk).1
  rw [← mem_eraseIdx_iff_of_nodup h hk, List.mem_eraseIdx_iff_getElem?, List.mem_iff_getElem?]
  constructor
  · rintro ⟨i, hi⟩
    by_cases hki : k = i
    · subst hki
      rw [getElem?_set_self hlt] at hi
      exact .inl (Option.some.inj hi).symm
    · rw [getElem?_set_ne hki] at hi
      exact .inr ⟨i, .symm hki, hi⟩
  · rintro (rfl | ⟨i, hik, hi⟩)
    · exact ⟨k, getElem?_set_self hlt⟩
    · exact ⟨i, by rw [getElem?_set_ne (.symm hik), hi]⟩

/-! ## What a representation says -/

namespace Repr

variable {L : Links α} {l : List α}

theorem next_none (h : L.Repr l) : L.next none = l.head? := by
  rw [head?_eq_getElem?]
  exact h.next_before 0 (Nat.zero_le _)

theorem prev_none (h : L.Repr l) : L.prev none = l.getLast? := by
  have := h.prev_getElem? l.length le_rfl
  rwa [getElem?_eq_none le_rfl, before_length] at this

theorem next_getElem (h : L.Repr l) {k : Nat} (hk : k < l.length) :
    L.next (some l[k]) = l[k + 1]? := by
  have := h.next_before (k + 1) hk
  rwa [before_succ, getElem?_eq_getElem hk] at this

theorem prev_getElem (h : L.Repr l) {k : Nat} (hk : k < l.length) :
    L.prev (some l[k]) = before l k := by
  have := h.prev_getElem? k hk.le
  rwa [getElem?_eq_getElem hk] at this

theorem next_eq_some_iff (h : L.Repr l) {a b : α} (ha : a ∈ l) (hb : b ∈ l) :
    L.next (some a) = some b ↔ L.prev (some b) = some a := by
  obtain ⟨j, hj, rfl⟩ := mem_iff_getElem.mp ha
  obtain ⟨k, hk, rfl⟩ := mem_iff_getElem.mp hb
  rw [h.next_getElem hj, h.prev_getElem hk, ← getElem?_eq_getElem hk,
    ← getElem?_eq_getElem hj, getElem?_inj_of_nodup h.nodup hj hk.le, ← before_succ,
    before_inj_of_nodup h.nodup hk.le hj]
  exact eq_comm

theorem of_steps (hnodup : l.Nodup)
    (h : ∀ j ≤ l.length, L.next (before l j) = l[j]? ∧ L.prev l[j]? = before l j) : L.Repr l :=
  ⟨hnodup, fun j hj => (h j hj).1, fun j hj => (h j hj).2⟩

/-- The step at position `j` is the old one in front of a new node, leads to it or away from it, or
is the old one behind it. -/
theorem insertIdx_steps {k : Nat} (hk : k ≤ l.length) (a : α) (j : Nat) :
    (j < k ∧ before (l.insertIdx k a) j = before l j ∧ (l.insertIdx k a)[j]? = l[j]?) ∨
    (j = k ∧ before (l.insertIdx k a) j = before l k ∧ (l.insertIdx k a)[j]? = some a) ∨
    (j = k + 1 ∧ before (l.insertIdx k a) j = some a ∧ (l.insertIdx k a)[j]? = l[k]?) ∨
    (k + 1 < j ∧ before (l.insertIdx k a) j = before l (j - 1) ∧
      (l.insertIdx k a)[j]? = l[j - 1]?) := by
  simp only [before, getElem?_insertIdx]
  obtain hlt | rfl | rfl | hlt : j < k ∨ j = k ∨ j = k + 1 ∨ k + 1 < j := by omega
  all_goals grind

theorem before_eraseIdx (l : List α) (k j : Nat) :
    before (l.eraseIdx k) j = if j ≤ k then before l j else before l (j + 1) := by
  rcases j with _ | j
  · rfl
  rw [before_succ, getElem?_eraseIdx]
  split_ifs <;> first | rfl | omega

end Repr

/-! ## The three updates -/

variable [DecidableEq α]

/-- Set the successor of a node. -/
def setNext (L : Links α) (x v : Option α) : Links α :=
  { L with next := Function.update L.next x v }

/-- Set the predecessor of a node. -/
def setPrev (L : Links α) (x v : Option α) : Links α :=
  { L with prev := Function.update L.prev x v }

/-- Put node `a` between `x` and `y`. -/
def insert (L : Links α) (a : α) (x y : Option α) : Links α :=
  (((L.setNext x (some a)).setNext (some a) y).setPrev y (some a)).setPrev (some a) x

/-- Let `x` and `y` skip whatever is between them. -/
def skip (L : Links α) (x y : Option α) : Links α := (L.setNext x y).setPrev y x

namespace Repr

variable {L : Links α} {l : List α}

/-- **Insertion** of a new node at position `k`. -/
theorem insertIdx (h : L.Repr l) {a : α} (ha : a ∉ l) {k : Nat} (hk : k ≤ l.length) :
    (L.insert a (before l k) l[k]?).Repr (l.insertIdx k a) := by
  have hlen : (l.insertIdx k a).length = l.length + 1 := length_insertIdx_of_le_length hk a
  have hx := before_ne_of_not_mem ha
  have hy := getElem?_ne_of_not_mem ha
  -- off the place that changed, the old links are still there
  have hold : ∀ j ≤ l.length, j ≠ k → (L.insert a (before l k) l[k]?).next (before l j) = l[j]? ∧
      (L.insert a (before l k) l[k]?).prev l[j]? = before l j := by
    intro j hj hjk
    simp only [Links.insert, setNext, setPrev]
    rw [update_of_ne (hx j), update_of_ne (mt (before_inj_of_nodup h.nodup hj hk).mp hjk),
      update_of_ne (hy j), update_of_ne (mt (getElem?_inj_of_nodup h.nodup hj hk).mp hjk)]
    exact ⟨h.next_before j hj, h.prev_getElem? j hj⟩
  refine .of_steps ((perm_insertIdx a l hk).nodup_iff.mpr (nodup_cons.mpr ⟨ha, h.nodup⟩))
    fun j hj => ?_
  obtain ⟨hlt, hbefore, hget⟩ | ⟨rfl, hbefore, hget⟩ | ⟨rfl, hbefore, hget⟩ | ⟨hlt, hbefore, hget⟩ :=
    insertIdx_steps hk a j
  all_goals rw [hbefore, hget]
  · exact hold j (by omega) (by omega)
  · simp only [Links.insert, setNext, setPrev]
    rw [update_of_ne (hx j), update_self, update_self]
    exact ⟨rfl, rfl⟩
  · simp only [Links.insert, setNext, setPrev]
    rw [update_self, update_of_ne (hy k), update_self]
    exact ⟨rfl, rfl⟩
  · exact hold (j - 1) (by omega) (by omega)

/-- **Removal** of the node at position `k`. -/
theorem eraseIdx (h : L.Repr l) {k : Nat} (hk : k < l.length) :
    (L.skip (before l k) l[k + 1]?).Repr (l.eraseIdx k) := by
  have hlen : (l.eraseIdx k).length = l.length - 1 := length_eraseIdx_of_lt hk
  have hold : ∀ j ≤ l.length, j ≠ k → j ≠ k + 1 →
      (L.skip (before l k) l[k + 1]?).next (before l j) = l[j]? ∧
        (L.skip (before l k) l[k + 1]?).prev l[j]? = before l j := by
    intro j hj hjk hjk'
    simp only [skip, setNext, setPrev]
    rw [update_of_ne (mt (before_inj_of_nodup h.nodup hj hk.le).mp hjk),
      update_of_ne (mt (getElem?_inj_of_nodup h.nodup hj hk).mp hjk')]
    exact ⟨h.next_before j hj, h.prev_getElem? j hj⟩
  refine .of_steps ((eraseIdx_sublist l k).nodup h.nodup) fun j hj => ?_
  rw [before_eraseIdx, getElem?_eraseIdx]
  rcases Nat.lt_trichotomy j k with hjk | rfl | hjk
  · rw [if_pos hjk.le, if_pos hjk]
    exact hold j (by omega) (by omega) (by omega)
  · rw [if_pos le_rfl, if_neg (by omega)]
    simp only [skip, setNext, setPrev]
    rw [update_self, update_self]
    exact ⟨rfl, rfl⟩
  · rw [if_neg (by omega), if_neg (by omega)]
    exact hold (j + 1) (by omega) (by omega) (by omega)

/-- **Relocation**: the node at position `k` moves to a new place `b` in
memory, its neighbours are told, and nobody else. -/
theorem set (h : L.Repr l) {b : α} (hb : b ∉ l) {k : Nat} (hk : k < l.length) :
    (L.insert b (before l k) l[k + 1]?).Repr (l.set k b) := by
  have herase := h.eraseIdx hk
  have hb' : b ∉ l.eraseIdx k := fun hm => hb ((eraseIdx_sublist l k).subset hm)
  have hlen : (l.eraseIdx k).length = l.length - 1 := length_eraseIdx_of_lt hk
  have hins := herase.insertIdx hb' (k := k) (by omega)
  have hx : before (l.eraseIdx k) k = before l k := by
    rcases k with _ | k
    · rfl
    · rw [before_succ, before_succ, getElem?_eraseIdx, if_pos (Nat.lt_succ_self k)]
  have hy : (l.eraseIdx k)[k]? = l[k + 1]? := by
    rw [getElem?_eraseIdx, if_neg (lt_irrefl k)]
  have hset : (l.eraseIdx k).insertIdx k b = l.set k b := by
    refine ext_getElem? fun j => ?_
    rw [getElem?_insertIdx, getElem?_set, getElem?_eraseIdx, getElem?_eraseIdx]
    split_ifs <;> first | rfl | omega | skip
    all_goals congr 1; omega
  rw [hx, hy, hset] at hins
  -- the links written by the removal are overwritten by the insertion
  have hlinks : (L.skip (before l k) l[k + 1]?).insert b (before l k) l[k + 1]? =
      L.insert b (before l k) l[k + 1]? := by
    simp [skip, Links.insert, setNext, setPrev]
  rwa [hlinks] at hins

end Repr

end Links

end Lhatove
