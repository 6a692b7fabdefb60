import Lhatove.Lib.Rings
import Lhatove.Math.Polygons

/-!
# What `triangulate` gives

The vertices that are left are a ring. Twice its area is a sum over its edges,
and cutting off an ear takes a triangle from it.

- `clipEars_spec`: the triangles of the loop make up the ring;
- `StrictlyConvex`, `Convex.cut`: a strictly convex ring stays one without a
  vertex, so that every vertex is an ear;
- `triangulate_iff`: what holds of the result, but for three vertices that are
  given clockwise: these are returned as they are.
-/

namespace Lhatove.Math

open List

section Areas

variable {K : Type} [Field K]

/-! ## Areas -/

/-- The area of a triangle, positive if it is counter-clockwise. -/
def Triangle.area (t : Triangle K) : K := det t.a t.b t.c / (2 : ℕ)

/-- The area of a polygon, positive if it is counter-clockwise. -/
def signedArea : List (Vector2 K) → K
  | [] => 0
  | p :: rest => ringSum Vector2.cross p rest / (2 : ℕ)

theorem cross_comm (v w : Vector2 K) : w.cross v = - v.cross w := by
  rw [Vector2.cross, Vector2.cross]
  ring

theorem det_eq_cross (a b c : Vector2 K) : det a b c = a.cross b + b.cross c - a.cross c := by
  rw [det, Vector2.cross, Vector2.cross, Vector2.cross]
  ring

theorem det_rotate (a b c : Vector2 K) : det b c a = det a b c := by
  rw [det, det]
  ring

theorem vertexAt_mem {polygon : List (Vector2 K)} {i : Nat} (h : i < polygon.length) :
    vertexAt polygon i ∈ polygon := by
  have hget : vertexAt polygon i = polygon[i] := by simp [vertexAt, h]
  rw [hget]
  exact getElem_mem h

/-- The edges of a ring of vertices. -/
def edge (polygon : List (Vector2 K)) (i j : Nat) : K :=
  (vertexAt polygon i).cross (vertexAt polygon j)

end Areas

variable {K : Type} [Field K] [LinearOrder K]

/-- Whether the polygon turns to the left, or not at all, at its leftmost vertex. -/
def LeftAtLeftmost (polygon : List (Vector2 K)) : Prop :=
  0 ≤ det (vertexAt polygon (prevIdx polygon.length (leftmost polygon)))
    (vertexAt polygon (leftmost polygon))
    (vertexAt polygon (nextIdx polygon.length (leftmost polygon)))

instance (polygon : List (Vector2 K)) : Decidable (LeftAtLeftmost polygon) := by
  unfold LeftAtLeftmost
  infer_instance

/-- The area of a polygon taken counter-clockwise: in the direction in which its
leftmost vertex, which is on the hull, turns to the left. -/
def ccwArea (polygon : List (Vector2 K)) : K :=
  if LeftAtLeftmost polygon then signedArea polygon else - signedArea polygon

/-! ## The loop -/

theorem exists_ends {rest : List Nat} (h : 2 ≤ rest.length) :
    ∃ b mid z, rest = b :: mid ++ [z] := by
  obtain ⟨b, l, rfl⟩ := exists_cons_of_length_pos (show 0 < rest.length by omega)
  rw [length_cons] at h
  have hne : l ≠ [] := ne_nil_of_length_pos (by omega)
  exact ⟨b, l.dropLast, l.getLast hne, by rw [cons_append, dropLast_append_getLast hne]⟩

/-- What the triangles that are added make up. -/
structure Clips (polygon : List (Vector2 K)) (current : Nat) (rest : List Nat)
    (triangles : List (Triangle K)) : Prop where
  count : triangles.length + 1 = rest.length
  corners : ∀ t ∈ triangles, t.a ∈ polygon ∧ t.b ∈ polygon ∧ t.c ∈ polygon
  area : (triangles.map Triangle.area).sum = ringSum (edge polygon) current rest / 2

omit [LinearOrder K] in
theorem triangle_corners {polygon : List (Vector2 K)} {s : Clipping K} {rest : List Nat}
    (hring : Ring s.nextIdx s.prevIdx s.current rest) (hrest : 2 ≤ rest.length)
    (hinside : ∀ i ∈ s.current :: rest, i < polygon.length) :
    (s.triangle polygon).a ∈ polygon ∧ (s.triangle polygon).b ∈ polygon ∧
      (s.triangle polygon).c ∈ polygon := by
  obtain ⟨b, mid, z, rfl⟩ := exists_ends hrest
  obtain ⟨hnext, hprev⟩ := hring.ends
  rw [Clipping.triangle, hnext, hprev]
  exact ⟨vertexAt_mem (hinside z (by simp)), vertexAt_mem (hinside _ (by simp)),
    vertexAt_mem (hinside b (by simp))⟩

/-- **The loop**: the triangles that it adds make up the ring. -/
theorem clipEars_spec {polygon : List (Vector2 K)} {s : Clipping K} {rest : List Nat}
    (hring : Ring s.nextIdx s.prevIdx s.current rest) (hcount : rest.length + 1 = s.nVertices)
    (hthree : 3 ≤ s.nVertices) (hinside : ∀ i ∈ s.current :: rest, i < polygon.length)
    {triangles : List (Triangle K)} (h : clipEars polygon s = .ok triangles) :
    ∃ more, triangles = s.triangles ++ more ∧ Clips polygon s.current rest more := by
  induction s using clipEars.induct polygon generalizing rest with
  | case1 s hmore hear ih =>
    -- an ear: the ring loses the current vertex
    rw [clipEars, if_pos hmore, if_pos hear] at h
    have hcorners := triangle_corners hring (by omega) hinside
    obtain ⟨b, mid, z, rfl⟩ := exists_ends (show 2 ≤ rest.length by omega)
    obtain ⟨hnext, hprev⟩ := hring.ends
    have hcut := hring.cut
    simp only [length_append, length_cons, length_nil] at hcount
    have hring' : Ring (s.clip polygon).nextIdx (s.clip polygon).prevIdx (s.clip polygon).current
        (mid ++ [z]) := by
      rw [Clipping.clip, hnext, hprev]
      exact hcut
    obtain ⟨more, hmore', hclips⟩ := ih hring' (by
        rw [length_append, length_singleton, Clipping.clip]
        dsimp only
        omega) (by rw [Clipping.clip]; dsimp only; omega) (fun i hi => hinside i (by
        rw [Clipping.clip, hnext] at hi
        exact mem_cons_of_mem _ hi)) h
    refine ⟨s.triangle polygon :: more, ?_, ?_, ?_, ?_⟩
    · rw [hmore', Clipping.clip, append_assoc, singleton_append]
    · have := hclips.count
      simp only [length_append, length_cons, length_nil] at this ⊢
      omega
    · intro t ht
      rcases mem_cons.mp ht with rfl | ht
      · exact hcorners
      · exact hclips.corners t ht
    · have hcurrent : (s.clip polygon).current = b := hnext
      rw [map_cons, sum_cons, hclips.area, hcurrent, ringSum_cut, Triangle.area,
        Clipping.triangle, hnext, hprev, det_eq_cross, edge, edge, edge]
      ring
  | case2 s hmore hear hskipped =>
    rw [clipEars, if_pos hmore, if_neg hear, if_pos hskipped] at h
    cases h
  | case3 s hmore hear hskipped ih =>
    -- no ear: the ring is looked at from the next vertex on
    rw [clipEars, if_pos hmore, if_neg hear, if_neg hskipped] at h
    obtain ⟨b, l, rfl⟩ := exists_cons_of_length_pos (show 0 < rest.length by omega)
    obtain ⟨hnext, hrotated⟩ := hring.rotate
    have hcurrent : s.skip.current = b := hnext
    obtain ⟨more, hmore', hclips⟩ := @ih (l ++ [s.current]) (by
        rw [hcurrent]
        exact hrotated) (by
        rw [length_append, length_singleton]
        exact hcount) hthree (fun i hi => hinside i (by
        rw [hcurrent] at hi
        rcases mem_cons.mp hi with rfl | hi
        · exact mem_cons_of_mem _ mem_cons_self
        · rcases mem_append.mp hi with hi | hi
          · exact mem_cons_of_mem _ (mem_cons_of_mem _ hi)
          · exact mem_cons.mpr (.inl (mem_singleton.mp hi)))) h
    refine ⟨more, hmore', ?_, hclips.corners, ?_⟩
    · have := hclips.count
      rw [length_append, length_singleton] at this
      rw [length_cons]
      exact this
    · rw [hclips.area, hcurrent, ringSum_rotate]
  | case4 s hdone =>
    rw [clipEars, if_neg hdone] at h
    cases h
    have hcorners := triangle_corners hring (by omega) hinside
    obtain ⟨b, mid, z, rfl⟩ := exists_ends (show 2 ≤ rest.length by omega)
    simp only [length_append, length_cons, length_nil] at hcount
    obtain rfl : mid = [] := eq_nil_of_length_eq_zero (by omega)
    obtain ⟨hnext, hprev⟩ := hring.ends
    refine ⟨[s.triangle polygon], rfl, rfl, ?_, ?_⟩
    · intro t ht
      rw [mem_singleton.mp ht]
      exact hcorners
    · rw [map_singleton, sum_singleton, Triangle.area, Clipping.triangle, hnext, hprev,
        det_eq_cross]
      rw [ringSum, cons_append, nil_append, pathSum, pathSum, pathSum, edge, edge, edge,
        cross_comm (vertexAt polygon z) (vertexAt polygon b)]
      ring

/-! ## Strictly convex polygons -/

/-- Each vertex lies strictly to the left of each edge that it is no end of. -/
def StrictlyLeft (polygon : List (Vector2 K)) : Prop :=
  ∀ i < polygon.length, ∀ j < polygon.length, j ≠ i → j ≠ nextIdx polygon.length i →
    0 < det (vertexAt polygon i) (vertexAt polygon (nextIdx polygon.length i)) (vertexAt polygon j)

/-- Each vertex lies strictly to the right of each edge that it is no end of. -/
def StrictlyRight (polygon : List (Vector2 K)) : Prop :=
  ∀ i < polygon.length, ∀ j < polygon.length, j ≠ i → j ≠ nextIdx polygon.length i →
    det (vertexAt polygon i) (vertexAt polygon (nextIdx polygon.length i)) (vertexAt polygon j) < 0

/-- A strictly convex polygon, in either winding. -/
def StrictlyConvex (polygon : List (Vector2 K)) : Prop :=
  StrictlyLeft polygon ∨ StrictlyRight polygon

/-- The vertices of a ring lie strictly to the left of its edges. -/
def Convex (polygon : List (Vector2 K)) (next : Nat → Nat) (nodes : List Nat) : Prop :=
  ∀ x ∈ nodes, ∀ w ∈ nodes, w ≠ x → w ≠ next x →
    0 < det (vertexAt polygon x) (vertexAt polygon (next x)) (vertexAt polygon w)

theorem Convex.nonneg {polygon : List (Vector2 K)} {next : Nat → Nat} {nodes : List Nat}
    (h : Convex polygon next nodes)
    {x w : Nat} (hx : x ∈ nodes) (hw : w ∈ nodes) (hne : w ≠ x) :
    0 ≤ det (vertexAt polygon x) (vertexAt polygon (next x)) (vertexAt polygon w) := by
  rcases eq_or_ne w (next x) with rfl | hnext
  · refine le_of_eq ?_
    rw [det]
    ring
  · exact (h x hx w hw hne hnext).le

theorem isEar_of_pos {polygon : List (Vector2 K)} {a b c : Nat}
    (h : 0 < det (vertexAt polygon a) (vertexAt polygon b) (vertexAt polygon c)) :
    isEar polygon a b c [] = true := by
  rw [isEar, isOrientedCcw, decide_eq_true h.le, anyPointInTriangle]
  rfl

theorem Convex.atEar {polygon : List (Vector2 K)} {s : Clipping K} {rest : List Nat}
    (hring : Ring s.nextIdx s.prevIdx s.current rest) (hrest : 2 ≤ rest.length)
    (h : Convex polygon s.nextIdx (s.current :: rest)) (hconcave : s.concaveVertices = []) :
    s.atEar polygon = true := by
  obtain ⟨b, mid, z, rfl⟩ := exists_ends hrest
  obtain ⟨hnext, hprev⟩ := hring.ends
  have hzb : b ≠ z := by
    rintro rfl
    exact (nodup_cons.mp (nodup_cons.mp hring.nodup).2).1 (by simp)
  have hbc : b ≠ s.current := by
    rintro heq
    exact (nodup_cons.mp hring.nodup).1 (by simp [heq])
  have hpos := h z (by simp) b (by simp) hzb (by rwa [hring.next_last])
  rw [hring.next_last] at hpos
  rw [Clipping.atEar, hconcave, hnext, hprev]
  exact isEar_of_pos hpos

section Ordered

variable [IsStrictOrderedRing K]

/-- Without the corner `b`: a point `w` that the edges at `b` have to their left, and
from which an edge goes to `w'` that has the three corners to its left. -/
theorem det_pos_of_cut {a b c w w' : Vector2 K} (hab : 0 < det a b w) (hbc : 0 < det b c w)
    (ha : 0 ≤ det w w' a) (hb : 0 ≤ det w w' b) (hc : 0 ≤ det w w' c)
    (hne : 0 < det w w' a ∨ 0 < det w w' c) : 0 < det a c w := by
  by_contra hac
  -- what `w` is, as a mean of the corners, is put into the affine map of the edge
  have hmean : det b c w * det w w' a + det a b w * det w w' c = det a c w * det w w' b := by
    simp only [det]
    ring
  have hright : det a c w * det w w' b ≤ 0 := mul_nonpos_of_nonpos_of_nonneg (not_lt.mp hac) hb
  have hleft : 0 < det b c w * det w w' a + det a b w * det w w' c := by
    rcases hne with hpos | hpos
    · exact add_pos_of_pos_of_nonneg (mul_pos hbc hpos) (mul_nonneg hab.le hc)
    · exact add_pos_of_nonneg_of_pos (mul_nonneg hbc.le ha) (mul_pos hab hpos)
  exact absurd (hmean ▸ hleft) (not_lt.mpr hright)

namespace Convex

variable {polygon : List (Vector2 K)} {next prev : Nat → Nat}

/-- **A vertex is left out**: the ring stays convex. -/
theorem cut {a b z : Nat} {mid : List Nat} (hring : Ring next prev a (b :: mid ++ [z]))
    (h : Convex polygon next (a :: (b :: mid ++ [z]))) :
    Convex polygon (Function.update next z b) (b :: (mid ++ [z])) := by
  obtain ⟨hnext, hprev⟩ := hring.ends
  have hlast := hring.next_last
  have ha : a ∈ a :: (b :: mid ++ [z]) := mem_cons_self
  have hb : b ∈ a :: (b :: mid ++ [z]) := by simp
  have hz : z ∈ a :: (b :: mid ++ [z]) := by simp
  have hmem : ∀ x ∈ b :: (mid ++ [z]), x ∈ a :: (b :: mid ++ [z]) := fun x hx =>
    mem_cons_of_mem a hx
  have hout : ∀ x ∈ b :: (mid ++ [z]), x ≠ a := by
    rintro x hx rfl
    exact (nodup_cons.mp hring.nodup).1 hx
  have hzb : z ≠ b := by
    rintro rfl
    exact (nodup_cons.mp (nodup_cons.mp hring.nodup).2).1 (by simp)
  intro x hx w hw hwx hwnext
  rcases eq_or_ne x z with rfl | hxz
  · -- the new edge: the edges at the vertex that goes have `w` to their left
    rw [Function.update_self] at hwnext ⊢
    have hwa := hout w hw
    have hxw := h x hz w (hmem w hw) hwx (by rwa [hlast])
    have haw := h a ha w (hmem w hw) hwa (by rwa [hnext])
    rw [hlast] at hxw
    rw [hnext] at haw
    refine det_pos_of_cut hxw haw (h.nonneg (hmem w hw) hz hwx.symm)
      (h.nonneg (hmem w hw) ha hwa.symm) (h.nonneg (hmem w hw) hb hwnext.symm) ?_
    rcases eq_or_ne x (next w) with hnw | hnw
    · refine .inr (h w (hmem w hw) b hb hwnext.symm ?_)
      rw [← hnw]
      exact hzb.symm
    · exact .inl (h w (hmem w hw) x hz hwx.symm hnw)
  · rw [Function.update_of_ne hxz] at hwnext ⊢
    exact h x (hmem x hx) w (hmem w hw) hwx hwnext

end Convex

/-- **The loop**, for a convex ring without concave vertices: it does not fail. -/
theorem clipEars_convex {polygon : List (Vector2 K)} {s : Clipping K} {rest : List Nat}
    (hring : Ring s.nextIdx s.prevIdx s.current rest) (hcount : rest.length + 1 = s.nVertices)
    (h : Convex polygon s.nextIdx (s.current :: rest)) (hconcave : s.concaveVertices = []) :
    ∃ triangles, clipEars polygon s = .ok triangles := by
  induction s using clipEars.induct polygon generalizing rest with
  | case1 s hmore hear ih =>
    rw [clipEars, if_pos hmore, if_pos hear]
    obtain ⟨b, mid, z, rfl⟩ := exists_ends (show 2 ≤ rest.length by omega)
    obtain ⟨hnext, hprev⟩ := hring.ends
    simp only [length_append, length_cons, length_nil] at hcount
    refine @ih (mid ++ [z]) ?_ ?_ ?_ ?_
    · rw [Clipping.clip, hnext, hprev]
      exact hring.cut
    · rw [length_append, length_singleton, Clipping.clip]
      dsimp only
      omega
    · rw [Clipping.clip, hnext, hprev]
      exact h.cut hring
    · rw [Clipping.clip, hconcave, filter_nil]
  | case2 s hmore hear hskipped | case3 s hmore hear hskipped ih =>
    exact absurd (h.atEar hring (by omega) hconcave) hear
  | case4 s hdone => exact ⟨_, by rw [clipEars, if_neg hdone]⟩

end Ordered

/-! ## The ring at first -/

variable {n : Nat}

theorem path_range' {a k : Nat} (h : a + k + 1 = n) :
    Path (nextIdx n) (prevIdx n) a (range' (a + 1) k) 0 := by
  induction k generalizing a with
  | zero => exact ⟨if_pos h, show n - 1 = a by omega⟩
  | succ k ih =>
    rw [range'_succ]
    exact ⟨⟨if_neg (by omega), rfl⟩, ih (by omega)⟩

theorem ring_range' (h : 0 < n) : Ring (nextIdx n) (prevIdx n) 0 (range' 1 (n - 1)) := by
  refine ⟨path_range' (by omega), nodup_cons.mpr ⟨?_, nodup_range'⟩⟩
  rw [mem_range'_1]
  omega

variable {i : Nat}

theorem mem_indices (h : 0 < n) : i ∈ 0 :: range' 1 (n - 1) ↔ i < n := by
  rw [mem_cons, mem_range'_1]
  omega

omit [LinearOrder K] in
theorem edge_comm (polygon : List (Vector2 K)) (i j : Nat) :
    edge polygon j i = - edge polygon i j := cross_comm ..

omit [LinearOrder K] in
theorem signedArea_eq {polygon : List (Vector2 K)} (h : 0 < polygon.length) :
    ringSum (edge polygon) 0 (range' 1 (polygon.length - 1)) / 2 = signedArea polygon := by
  obtain ⟨p, rest, rfl⟩ := exists_cons_of_length_pos h
  have hmap : (range' 1 rest.length).map (vertexAt (p :: rest)) = rest := by
    refine ext_getElem (by simp) fun i _ hi => ?_
    simp [vertexAt, Nat.add_comm 1 i, hi]
  rw [signedArea, ringSum, ringSum, length_cons, Nat.add_sub_cancel]
  have := pathSum_map Vector2.cross (vertexAt (p :: rest)) 0 0 (range' 1 rest.length)
  rw [hmap] at this
  exact congrArg (· / 2) this.symm

/-- **What the loop starts with** is a ring of all the vertices, in the direction that
is counter-clockwise at the leftmost one. -/
theorem startClipping_ring {polygon : List (Vector2 K)} (h : 3 ≤ polygon.length) :
    ∃ rest, Ring (startClipping polygon).nextIdx (startClipping polygon).prevIdx 1 rest ∧
      rest.length + 1 = polygon.length ∧ (∀ i, i ∈ 1 :: rest ↔ i < polygon.length) ∧
      ringSum (edge polygon) 1 rest / 2 = ccwArea polygon := by
  have hpos : 0 < polygon.length := by omega
  have hone : (1 : Nat) ∈ 0 :: range' 1 (polygon.length - 1) := (mem_indices hpos).mpr (by omega)
  have hring := ring_range' hpos
  rcases Decidable.em (LeftAtLeftmost polygon) with hleft | hleft
  · obtain ⟨rest, hrest, hperm, hsum⟩ := hring.startAt (edge polygon) hone
    have hexpected : expectedWinding polygon = true := decide_eq_true hleft
    refine ⟨rest, ?_, ?_, fun i => ?_, ?_⟩
    · rw [startClipping, if_pos hexpected, if_pos hexpected]
      exact hrest
    · have := hperm.length_eq
      simp only [length_cons, length_range'] at this
      omega
    · rw [hperm.mem_iff, mem_indices hpos]
    · rw [hsum, signedArea_eq hpos, ccwArea, if_pos hleft]
  · have hone' : (1 : Nat) ∈ 0 :: (range' 1 (polygon.length - 1)).reverse := by
      rwa [mem_cons, mem_reverse, ← mem_cons]
    obtain ⟨rest, hrest, hperm, hsum⟩ := hring.reverse.startAt (edge polygon) hone'
    have hexpected : ¬ expectedWinding polygon = true := fun heq => hleft (of_decide_eq_true heq)
    refine ⟨rest, ?_, ?_, fun i => ?_, ?_⟩
    · rw [startClipping, if_neg hexpected, if_neg hexpected]
      exact hrest
    · have := hperm.length_eq
      simp only [length_cons, length_reverse, length_range'] at this
      omega
    · rw [hperm.mem_iff, mem_cons, mem_reverse, ← mem_cons, mem_indices hpos]
    · rw [hsum, ringSum_reverse (edge_comm polygon), neg_div, signedArea_eq hpos, ccwArea,
        if_neg hleft]

theorem leftmost_lt {polygon : List (Vector2 K)} (h : 0 < polygon.length) :
    leftmost polygon < polygon.length := by
  refine foldlRecOn (motive := fun lm => lm < polygon.length) _ _ h fun lm hlm i hi => ?_
  dsimp only
  split
  · exact mem_range.mp hi
  · exact hlm

theorem nextIdx_lt (h : i < n) : nextIdx n i < n := by
  rw [nextIdx]
  split <;> omega

theorem prevIdx_lt (h : i < n) : prevIdx n i < n := by
  rw [prevIdx]
  split <;> omega

theorem nextIdx_prevIdx (hi : i < n) : nextIdx n (prevIdx n i) = i := by
  rw [nextIdx, prevIdx]
  split <;> split <;> omega

theorem nextIdx_ne (hi : i < n) (hn : 3 ≤ n) : nextIdx n i ≠ i ∧ nextIdx n i ≠ prevIdx n i := by
  rw [nextIdx, prevIdx]
  split <;> split <;> omega

theorem StrictlyLeft.corner {polygon : List (Vector2 K)} (h : StrictlyLeft polygon)
    (hn : 3 ≤ polygon.length) (hi : i < polygon.length) :
    0 < det (vertexAt polygon (prevIdx polygon.length i)) (vertexAt polygon i)
      (vertexAt polygon (nextIdx polygon.length i)) := by
  have := h _ (prevIdx_lt hi) _ (nextIdx_lt hi) (nextIdx_ne hi hn).2
    (by rw [nextIdx_prevIdx hi]; exact (nextIdx_ne hi hn).1)
  rwa [nextIdx_prevIdx hi] at this

theorem StrictlyRight.corner {polygon : List (Vector2 K)} (h : StrictlyRight polygon)
    (hn : 3 ≤ polygon.length) (hi : i < polygon.length) :
    det (vertexAt polygon (prevIdx polygon.length i)) (vertexAt polygon i)
      (vertexAt polygon (nextIdx polygon.length i)) < 0 := by
  have := h _ (prevIdx_lt hi) _ (nextIdx_lt hi) (nextIdx_ne hi hn).2
    (by rw [nextIdx_prevIdx hi]; exact (nextIdx_ne hi hn).1)
  rwa [nextIdx_prevIdx hi] at this


section Ordered

variable [IsStrictOrderedRing K]

variable {a b c : Vector2 K}

theorem det_swap_pos (h : det a b c < 0) : 0 < det b a c := by
  have : det b a c = - det a b c := by
    rw [det, det]
    ring
  rw [this]
  exact neg_pos.mpr h

theorem det_reverse_pos (h : det a b c < 0) : 0 < det c b a := by
  rw [← det_rotate] at h
  exact det_swap_pos h

theorem convex_start {polygon : List (Vector2 K)} (h : 3 ≤ polygon.length)
    (hconvex : StrictlyConvex polygon) {nodes : List Nat}
    (hnodes : ∀ i, i ∈ nodes ↔ i < polygon.length) :
    Convex polygon (startClipping polygon).nextIdx nodes ∧
      (startClipping polygon).concaveVertices = [] := by
  have hlm := @leftmost_lt K _ _ polygon (by omega)
  rcases hconvex with hleft | hright
  · have hexpected : expectedWinding polygon = true := decide_eq_true (hleft.corner h hlm).le
    rw [startClipping, if_pos hexpected, if_pos hexpected]
    constructor
    · intro x hx w hw
      exact hleft x ((hnodes x).mp hx) w ((hnodes w).mp hw)
    · refine filter_eq_nil_iff.mpr fun i hi => ?_
      rw [isOrientedCcw, decide_eq_true (hleft.corner h (mem_range.mp hi)).le]
      exact Bool.false_ne_true
  · have hexpected : ¬ expectedWinding polygon = true := fun heq =>
      not_lt.mpr (of_decide_eq_true heq) (hright.corner h hlm)
    rw [startClipping, if_neg hexpected, if_neg hexpected]
    constructor
    · intro x hx w hw hwx hwprev
      have hx' := (hnodes x).mp hx
      have := hright _ (prevIdx_lt hx') w ((hnodes w).mp hw) hwprev
        (by rwa [nextIdx_prevIdx hx'])
      rw [nextIdx_prevIdx hx'] at this
      exact det_swap_pos this
    · refine filter_eq_nil_iff.mpr fun i hi => ?_
      have := det_reverse_pos (hright.corner h (mem_range.mp hi))
      rw [isOrientedCcw, decide_eq_true this.le]
      exact Bool.false_ne_true

/-! ## The result -/

/-- What `triangulate` promises of a polygon: if it succeeds, the triangles have the
polygon's vertices as corners, are two less than these, and make up its area taken
counter-clockwise; and it does succeed for a strictly convex polygon. -/
structure TriangulatesWell (polygon : List (Vector2 K)) : Prop where
  count : ∀ triangles, triangulate polygon = .ok triangles →
    triangles.length = polygon.length - 2
  corners : ∀ triangles, triangulate polygon = .ok triangles →
    ∀ t ∈ triangles, t.a ∈ polygon ∧ t.b ∈ polygon ∧ t.c ∈ polygon
  area : ∀ triangles, triangulate polygon = .ok triangles →
    (triangles.map Triangle.area).sum = ccwArea polygon
  convex : StrictlyConvex polygon → ∃ triangles, triangulate polygon = .ok triangles

theorem triangulatesWell_of_lt {polygon : List (Vector2 K)} (h : 3 < polygon.length) :
    TriangulatesWell polygon := by
  have hrun : triangulate polygon = clipEars polygon (startClipping polygon) := by
    rw [triangulate, if_neg (by omega), if_neg (by omega)]
  obtain ⟨rest, hring, hcount, hnodes, hsum⟩ := startClipping_ring h.le
  have hspec : ∀ triangles, triangulate polygon = .ok triangles →
      Clips polygon 1 rest triangles := by
    intro triangles hok
    rw [hrun] at hok
    obtain ⟨more, rfl, hclips⟩ := clipEars_spec hring hcount h.le (fun i hi => (hnodes i).mp hi) hok
    exact hclips
  constructor
  · intro triangles hok
    have := (hspec triangles hok).count
    omega
  · exact fun triangles hok => (hspec triangles hok).corners
  · exact fun triangles hok => (hspec triangles hok).area.trans hsum
  · intro hconvex
    obtain ⟨hstart, hconcave⟩ := convex_start h.le hconvex hnodes
    rw [hrun]
    exact clipEars_convex hring hcount hstart hconcave

theorem triangulatesWell_three : TriangulatesWell [a, b, c] ↔ 0 ≤ det a b c := by
  have hrun : triangulate [a, b, c] = .ok [⟨a, b, c⟩] := rfl
  have harea : signedArea [a, b, c] = det a b c / 2 := by
    rw [det_eq_cross, signedArea, ringSum, pathSum, pathSum, pathSum, cross_comm a c]
    ring
  have hleft : LeftAtLeftmost [a, b, c] ↔ 0 ≤ det a b c := by
    have hlm : leftmost [a, b, c] < 3 := @leftmost_lt K _ _ [a, b, c] (Nat.succ_pos 2)
    rw [LeftAtLeftmost]
    generalize leftmost [a, b, c] = lm at hlm
    interval_cases lm
    · exact (iff_of_eq (congrArg (0 ≤ ·) (det_rotate c a b).symm))
    · exact .rfl
    · exact (iff_of_eq (congrArg (0 ≤ ·) (det_rotate a b c)))
  have hsum : TriangulatesWell [a, b, c] ↔ det a b c / 2 = ccwArea [a, b, c] := by
    constructor
    · intro h
      rw [← h.area _ hrun, map_singleton, sum_singleton, Triangle.area, Nat.cast_ofNat]
    · intro h
      constructor
      · intro triangles hok
        rw [hrun] at hok
        cases hok
        rfl
      · intro triangles hok t ht
        rw [hrun] at hok
        cases hok
        rw [mem_singleton.mp ht]
        simp
      · intro triangles hok
        rw [hrun] at hok
        cases hok
        rw [← h, map_singleton, sum_singleton, Triangle.area, Nat.cast_ofNat]
      · exact fun _ => ⟨_, hrun⟩
  rw [hsum, ccwArea, harea]
  rcases Decidable.em (0 ≤ det a b c) with hdet | hdet
  · rw [if_pos (hleft.mpr hdet)]
    exact iff_of_true rfl hdet
  · rw [if_neg fun heq => hdet (hleft.mp heq)]
    constructor
    · intro heq
      linarith
    · exact fun hpos => absurd hpos hdet

/-- **`triangulate`** terminates, gives triangles of the polygon's vertices, two less than
these, which make up its area taken counter-clockwise, and succeeds for each strictly
convex polygon: if and only if the polygon is not a triangle given clockwise. -/
theorem triangulate_iff {polygon : List (Vector2 K)} (h : 3 ≤ polygon.length) :
    TriangulatesWell polygon ↔ (polygon.length = 3 →
      0 ≤ det (vertexAt polygon 0) (vertexAt polygon 1) (vertexAt polygon 2)) := by
  rcases h.eq_or_lt with hthree | hlt
  · obtain ⟨a, b, c, rfl⟩ := length_eq_three.mp hthree.symm
    exact triangulatesWell_three.trans ⟨fun hdet _ => hdet, fun hdet => hdet rfl⟩
  · exact ⟨fun _ heq => absurd heq (by omega), fun _ => triangulatesWell_of_lt hlt⟩

/-- A square, counter-clockwise. -/
def square : List (Vector2 ℚ) := [⟨0, 0⟩, ⟨2, 0⟩, ⟨2, 2⟩, ⟨0, 2⟩]

theorem triangulate_square : StrictlyConvex square ∧ TriangulatesWell square :=
  ⟨.inl (by unfold StrictlyLeft; decide +kernel),
    (triangulate_iff (by decide)).mpr fun h => absurd h (by decide)⟩

/-- A triangle, clockwise: the triangle that is returned has a negative area. -/
def clockwise : List (Vector2 ℚ) := [⟨0, 0⟩, ⟨0, 2⟩, ⟨2, 0⟩]

theorem clockwise_not_turned : 3 ≤ clockwise.length ∧ ¬ TriangulatesWell clockwise :=
  ⟨by decide, fun h => absurd (triangulatesWell_three.mp h) (by decide +kernel)⟩

end Ordered

end Lhatove.Math
