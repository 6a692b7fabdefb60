import Mathlib.Tactic

/-!
# Rings of nodes

A ring is threaded through the nodes by a successor and a predecessor map, and a
list says in which order. Sums over the edges of a ring go with it: what does it
change to start elsewhere, to go the other way, or to leave a node out?

- `Path`, `Ring`: the maps agree with a list of nodes;
- `Ring.reverse`, `Ring.rotate`, `Ring.cut`;
- `pathSum`, `ringSum`: sums over the edges, and how they change with the ring.
-/

namespace Lhatove

universe u

variable {α : Type u}

/-! ## Paths and rings -/

/-- From `a` over the nodes of the list to `b`. -/
def Path (next prev : α → α) : α → List α → α → Prop
  | a, [], b => next a = b ∧ prev b = a
  | a, c :: l, b => (next a = c ∧ prev c = a) ∧ Path next prev c l b

/-- From `a` over the nodes of the list back to `a`, and to no node twice. -/
structure Ring (next prev : α → α) (a : α) (l : List α) : Prop where
  path : Path next prev a l a
  nodup : (a :: l).Nodup

namespace Path

variable {next prev : α → α}

theorem append_iff {a b c : α} {l r : List α} :
    Path next prev a (l ++ c :: r) b ↔ Path next prev a l c ∧ Path next prev c r b := by
  induction l generalizing a with
  | nil => exact .rfl
  | cons d l ih =>
    constructor
    · rintro ⟨hedge, hpath⟩
      exact ⟨⟨hedge, (ih.mp hpath).1⟩, (ih.mp hpath).2⟩
    · rintro ⟨⟨hedge, hleft⟩, hright⟩
      exact ⟨hedge, ih.mpr ⟨hleft, hright⟩⟩

theorem reverse {a b : α} {l : List α} (h : Path next prev a l b) : Path prev next b l.reverse a := by
  induction l generalizing a with
  | nil => exact ⟨h.2, h.1⟩
  | cons c l ih =>
    rw [List.reverse_cons]
    exact append_iff.mpr ⟨ih h.2, h.1.2, h.1.1⟩

theorem congr {next' prev' : α → α} {a b : α} {l : List α} (h : Path next prev a l b)
    (hnext : ∀ x ∈ a :: l, next' x = next x) (hprev : ∀ y ∈ l ++ [b], prev' y = prev y) :
    Path next' prev' a l b := by
  induction l generalizing a with
  | nil =>
    exact ⟨(hnext a List.mem_cons_self).trans h.1, (hprev b List.mem_cons_self).trans h.2⟩
  | cons c l ih =>
    refine ⟨⟨(hnext a List.mem_cons_self).trans h.1.1, (hprev c List.mem_cons_self).trans h.1.2⟩, ?_⟩
    exact ih h.2 (fun x hx => hnext x (List.mem_cons_of_mem _ hx))
      fun y hy => hprev y (List.mem_cons_of_mem _ hy)

end Path

namespace Ring

variable {next prev : α → α}

theorem reverse {a : α} {l : List α} (h : Ring next prev a l) : Ring prev next a l.reverse :=
  ⟨h.path.reverse, ((List.Perm.cons a (List.reverse_perm l)).nodup_iff).mpr h.nodup⟩

theorem rotate {a b : α} {l : List α} (h : Ring next prev a (b :: l)) :
    next a = b ∧ Ring next prev b (l ++ [a]) := by
  refine ⟨h.path.1.1, Path.append_iff.mpr ⟨h.path.2, h.path.1⟩, ?_⟩
  have hperm : (b :: (l ++ [a])).Perm (a :: (b :: l)) :=
    @List.perm_append_comm α (b :: l) [a]
  exact hperm.nodup_iff.mpr h.nodup

theorem ends {a b z : α} {l : List α} (h : Ring next prev a (b :: l ++ [z])) :
    next a = b ∧ prev a = z := by
  have hlast : Path next prev a ((b :: l) ++ z :: []) a := h.path
  exact ⟨h.path.1.1, (Path.append_iff.mp hlast).2.2⟩

theorem next_last {a b z : α} {l : List α} (h : Ring next prev a (b :: l ++ [z])) : next z = a := by
  have hlast : Path next prev a ((b :: l) ++ z :: []) a := h.path
  exact (Path.append_iff.mp hlast).2.1

/-- **A node is left out**: its neighbours are linked. -/
theorem cut [DecidableEq α] {a b z : α} {l : List α} (h : Ring next prev a (b :: l ++ [z])) :
    Ring (Function.update next z b) (Function.update prev b z) b (l ++ [z]) := by
  have hpath : Path next prev b (l ++ z :: []) a := h.path.2
  obtain ⟨hinner, -⟩ := Path.append_iff.mp hpath
  have hnodup : (b :: (l ++ [z])).Nodup := (List.nodup_cons.mp h.nodup).2
  have hz : z ∉ b :: l := by
    have := List.nodup_append.mp (show ((b :: l) ++ [z]).Nodup from hnodup)
    intro hmem
    exact this.2.2 z hmem z List.mem_cons_self rfl
  refine ⟨Path.append_iff.mpr ⟨hinner.congr (fun x hx => ?_) (fun y hy => ?_), ?_, ?_⟩, hnodup⟩
  · refine Function.update_of_ne ?_ b next
    rintro rfl
    exact hz hx
  · refine Function.update_of_ne ?_ z prev
    rintro rfl
    exact (List.nodup_cons.mp hnodup).1 hy
  all_goals exact Function.update_self ..

end Ring

/-! ## Sums over edges -/

section Sums

variable {M : Type*} [AddCommGroup M]

/-- The sum over the edges of a path. -/
def pathSum (f : α → α → M) : α → List α → α → M
  | a, [], b => f a b
  | a, c :: l, b => f a c + pathSum f c l b

/-- The sum over the edges of a ring. -/
def ringSum (f : α → α → M) (a : α) (l : List α) : M := pathSum f a l a

theorem pathSum_append (f : α → α → M) (a c b : α) (l r : List α) :
    pathSum f a (l ++ c :: r) b = pathSum f a l c + pathSum f c r b := by
  induction l generalizing a with
  | nil => rfl
  | cons d l ih =>
    rw [List.cons_append, pathSum, ih, pathSum, add_assoc]

theorem pathSum_reverse (f : α → α → M) (a b : α) (l : List α) :
    pathSum f b l.reverse a = pathSum (fun x y => f y x) a l b := by
  induction l generalizing a with
  | nil => rfl
  | cons c l ih =>
    rw [List.reverse_cons, pathSum_append, ih, pathSum, pathSum, add_comm]

theorem pathSum_neg (f : α → α → M) (a b : α) (l : List α) :
    pathSum (fun x y => - f x y) a l b = - pathSum f a l b := by
  induction l generalizing a with
  | nil => rfl
  | cons c l ih => rw [pathSum, ih, pathSum, neg_add]

theorem pathSum_map {β : Type*} (f : β → β → M) (g : α → β) (a b : α) (l : List α) :
    pathSum f (g a) (l.map g) (g b) = pathSum (fun x y => f (g x) (g y)) a l b := by
  induction l generalizing a with
  | nil => rfl
  | cons c l ih => rw [List.map_cons, pathSum, ih, pathSum]

/-- The other way round the ring, where the edges change their sign. -/
theorem ringSum_reverse {f : α → α → M} (hf : ∀ x y, f y x = - f x y) (a : α) (l : List α) :
    ringSum f a l.reverse = - ringSum f a l := by
  have hflip : (fun x y => f y x) = fun x y => - f x y := funext fun x => funext fun y => hf x y
  rw [ringSum, pathSum_reverse, hflip, pathSum_neg, ringSum]

theorem ringSum_rotate (f : α → α → M) (a b : α) (l : List α) :
    ringSum f b (l ++ [a]) = ringSum f a (b :: l) := by
  rw [ringSum, pathSum_append, ringSum, pathSum, pathSum, add_comm]

/-- **The sum over a ring without a node** is that over the ring, less a triangle. -/
theorem ringSum_cut (f : α → α → M) (a b z : α) (l : List α) :
    ringSum f a (b :: l ++ [z]) = ringSum f b (l ++ [z]) + (f z a + f a b - f z b) := by
  rw [ringSum, ringSum, pathSum_append, pathSum_append, pathSum, pathSum, pathSum]
  abel

/-- A ring may be started at any of its nodes; the sum does not depend on that. -/
theorem Ring.startAt {next prev : α → α} (f : α → α → M) {a c : α} {l : List α}
    (h : Ring next prev a l) (hc : c ∈ a :: l) :
    ∃ r, Ring next prev c r ∧ (c :: r).Perm (a :: l) ∧ ringSum f c r = ringSum f a l := by
  rcases List.mem_cons.mp hc with rfl | hc
  · exact ⟨l, h, .refl _, rfl⟩
  · obtain ⟨left, right, rfl⟩ := List.append_of_mem hc
    have hperm : (c :: (right ++ a :: left)).Perm (a :: (left ++ c :: right)) :=
      @List.perm_append_comm α (c :: right) (a :: left)
    obtain ⟨hleft, hright⟩ := Path.append_iff.mp h.path
    refine ⟨right ++ a :: left, ⟨Path.append_iff.mpr ⟨hright, hleft⟩,
      hperm.nodup_iff.mpr h.nodup⟩, hperm, ?_⟩
    rw [ringSum, pathSum_append, ringSum, pathSum_append, add_comm]

end Sums

end Lhatove
