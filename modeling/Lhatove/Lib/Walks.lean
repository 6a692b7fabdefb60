import Lhatove.Lib.Loop

/-!
# Walks of a tree

A walk lists a directory and takes what is listed in turn: it enters a directory and walks
it, and visits what is no directory. Entering and visiting may change the tree that is walked.

- `Does`: what a program leaves where it ends, with the rules for programs and for walks
  (`walk_does`);
- `walk_ends`: a walk of a tree that stays shallow ends;
- `walk_visits`: a walk that throws nothing visits what can be found all the time;
- `walk_never`: a walk that is given one more directory in each that it lists does not end.
-/

namespace Lhatove

namespace LoopM

variable {ε σ α β : Type}

/-! ## What a program leaves -/

/-- `Q` holds of a value and `E` of an exception. -/
def Post (Q : α → σ → Prop) (E : ε → σ → Prop) : Except ε α × σ → Prop
  | (.ok a, t) => Q a t
  | (.error e, t) => E e t

/-- Where the program ends, from a state with `P`, it does so with `Q` or `E`. -/
def Does (P : σ → Prop) (x : LoopM ε σ α) (Q : α → σ → Prop) (E : ε → σ → Prop) : Prop :=
  ∀ s r, P s → x.result s = some r → Post Q E r

variable {P : σ → Prop} {Q : α → σ → Prop} {R : β → σ → Prop} {E : ε → σ → Prop}

theorem Does.pure {a : α} (h : ∀ s, P s → Q a s) : Does P (pure a : LoopM ε σ α) Q E := by
  intro s r hP hr
  rw [result_pure] at hr
  cases hr
  exact h s hP

theorem Does.throw {e : ε} (h : ∀ s, P s → E e s) : Does P (throw e : LoopM ε σ α) Q E := by
  intro s r hP hr
  rw [result_throw] at hr
  cases hr
  exact h s hP

theorem Does.modify {f : σ → σ} {Q : Unit → σ → Prop} (h : ∀ s, P s → Q () (f s)) :
    Does P (modify f : LoopM ε σ Unit) Q E := by
  intro s r hP hr
  rw [result_modify] at hr
  cases hr
  exact h s hP

theorem Does.bind {x : LoopM ε σ α} {f : α → LoopM ε σ β} (hx : Does P x Q E)
    (hf : ∀ a, Does (Q a) (f a) R E) : Does P (x >>= f) R E := by
  rintro s ⟨r, t⟩ hP hr
  obtain ⟨e, hs, rfl⟩ | ⟨a, u, hs, hr⟩ := result_bind_some hr
  · exact hx s _ hP hs
  · exact hf a u _ (hx s _ hP hs) hr

theorem Does.get_bind {f : σ → LoopM ε σ β} (hf : ∀ s, P s → Does (· = s) (f s) R E) :
    Does P (get >>= f) R E := by
  intro s r hP hr
  exact hf s hP s r rfl hr

theorem Does.mono {P' : σ → Prop} {Q' : α → σ → Prop} {E' : ε → σ → Prop} {x : LoopM ε σ α}
    (h : Does P x Q E) (hP : ∀ s, P' s → P s) (hQ : ∀ a s, Q a s → Q' a s)
    (hE : ∀ e s, E e s → E' e s) : Does P' x Q' E' := by
  intro s r hs hr
  have hpost := h s r (hP s hs) hr
  rcases r with ⟨_ | a, t⟩
  · exact hE _ _ hpost
  · exact hQ a t hpost

theorem Does.forM {N : Type} {f : N → LoopM ε σ Unit} {l : List N}
    (h : ∀ n ∈ l, Does P (f n) (fun _ => P) E) : Does P (l.forM f) (fun _ => P) E := by
  induction l with
  | nil => exact .pure fun _ hs => hs
  | cons n l ih =>
    exact Does.bind (h n List.mem_cons_self) fun _ => ih fun n' hn' =>
      h n' (List.mem_cons_of_mem n hn')

theorem ends_pure (a : α) (s : σ) : (Pure.pure a : LoopM ε σ α).Ends s :=
  ends_of_result (result_pure a s)

theorem ends_throw (e : ε) (s : σ) : (LoopM.throw e : LoopM ε σ α).Ends s :=
  ends_of_result (result_throw e s)

theorem ends_bind {x : LoopM ε σ α} {f : α → LoopM ε σ β} (hx : ∀ s, x.Ends s)
    (hf : ∀ a s, (f a).Ends s) (s : σ) : (x >>= f).Ends s :=
  (ends_bind_iff hf).mpr (hx s)

theorem Does.ends_bind {x : LoopM ε σ α} {f : α → LoopM ε σ β} (hx : Does P x Q E)
    (hends : ∀ s, P s → x.Ends s) (hf : ∀ a s, Q a s → (f a).Ends s) (s : σ) (hs : P s) :
    (x >>= f).Ends s := by
  obtain ⟨⟨_ | a, t⟩, hr⟩ := ends_iff.mp (hends s hs)
  · exact ends_of_result (result_bind_error hr)
  · obtain ⟨r, hr'⟩ := ends_iff.mp (hf a t (hx s _ hs hr))
    exact ends_of_result ((result_bind_ok hr).trans hr')

/-- One thing after the other ends if each does, from any state that is kept. -/
theorem forM_ends {N : Type} {f : N → LoopM ε σ Unit} {l : List N}
    (h : ∀ n ∈ l, Does P (f n) (fun _ => P) E) (hends : ∀ n ∈ l, ∀ s, P s → (f n).Ends s) :
    ∀ s, P s → (l.forM f).Ends s := by
  induction l with
  | nil => exact fun s _ => ends_of_result (result_pure () s)
  | cons n l ih =>
    exact (h n List.mem_cons_self).ends_bind (hends n List.mem_cons_self) fun _ =>
      ih (fun n' hn' => h n' (List.mem_cons_of_mem n hn'))
        fun n' hn' => hends n' (List.mem_cons_of_mem n hn')

/-! ## Programs that are allowed more turns -/

/-- What the first program makes of a state in some turns, the second one does. -/
def Below (x y : LoopM ε σ α) : Prop := ∀ n s r, x.run n s = some r → y.run n s = some r

theorem Below.refl (x : LoopM ε σ α) : Below x x := fun _ _ _ h => h

theorem Below.bind {x y : LoopM ε σ α} {f g : α → LoopM ε σ β} (hx : Below x y)
    (hf : ∀ a, Below (f a) (g a)) : Below (x >>= f) (y >>= g) := by
  intro n s r h
  rw [run_bind] at h ⊢
  rcases hs : x.run n s with _ | ⟨e | a, t⟩
  · rw [hs] at h
    cases h
  · rw [hs] at h
    rw [hx n s _ hs]
    exact h
  · rw [hs] at h
    rw [hx n s _ hs]
    exact hf a n t r h

theorem Below.forM {N : Type} {f g : N → LoopM ε σ Unit} (l : List N)
    (hf : ∀ n, Below (f n) (g n)) : Below (l.forM f) (l.forM g) := by
  induction l with
  | nil => exact .refl _
  | cons n l ih => exact .bind (hf n) fun _ => ih

/-- The program that never ends. -/
def never : LoopM ε σ α where
  run _ _ := none
  mono _ _ _ h := h

end LoopM

/-! ## Walks -/

/-- What is seen of a tree, and what is done at each place of it. -/
structure Walk (ε σ N : Type) where
  items : σ → List N → List N
  isDirectory : σ → List N → Option Bool
  enter : List N → LoopM ε σ Unit
  visit : List N → LoopM ε σ Unit

namespace Walk

open LoopM

variable {ε σ N : Type} (w : Walk ε σ N)

/-- What is gone by now is left out. -/
def item (below : List N → LoopM ε σ Unit) (path : List N) : LoopM ε σ Unit := do
  let s ← get
  match w.isDirectory s path with
  | none => pure ()
  | some true => do
    w.enter path
    below path
  | some false => w.visit path

/-- The items are those of the moment when the directory is listed. -/
def listing (below : List N → LoopM ε σ Unit) (dir : List N) : LoopM ε σ Unit := do
  let s ← get
  (w.items s dir).forM fun n => w.item below (dir ++ [n])

/-- The walk as far as some levels down. -/
def down : Nat → List N → LoopM ε σ Unit
  | 0, _ => never
  | k + 1, dir => w.listing (down k) dir

variable {w}

theorem item_below {f g : List N → LoopM ε σ Unit} (hfg : ∀ p, Below (f p) (g p)) (path : List N) :
    Below (w.item f path) (w.item g path) := by
  refine .bind (.refl _) fun s => ?_
  rcases w.isDirectory s path with _ | _ | _
  · exact .refl _
  · exact .refl _
  · exact .bind (.refl _) fun _ => hfg path

theorem down_below (k : Nat) (dir : List N) : Below (w.down k dir) (w.down (k + 1) dir) := by
  induction k generalizing dir with
  | zero =>
    intro n s r h
    cases h
  | succ k ih =>
    exact .bind (.refl _) fun s => .forM _ fun n => item_below ih (dir ++ [n])

theorem down_run_le {k l n : Nat} {dir : List N} {s : σ} {r : Except ε Unit × σ} (hkl : k ≤ l)
    (h : (w.down k dir).run n s = some r) : (w.down l dir).run n s = some r := by
  induction l, hkl using Nat.le_induction with
  | base => exact h
  | succ l _ ih => exact down_below l dir n s r ih

variable (w) in
/-- The walk of a directory. -/
def walk (dir : List N) : LoopM ε σ Unit where
  run n s := (w.down n dir).run n s
  mono n s r h := down_run_le n.le_succ ((w.down n dir).mono n s r h)

theorem walk_result {dir : List N} {s : σ} {r : Except ε Unit × σ} :
    (w.walk dir).result s = some r ↔ ∃ k, (w.down k dir).result s = some r := by
  constructor
  · intro h
    obtain ⟨n, hn⟩ := result_eq_some.mp h
    exact ⟨n, result_of_run hn⟩
  · rintro ⟨k, h⟩
    obtain ⟨n, hn⟩ := result_eq_some.mp h
    refine @result_of_run _ _ _ _ (max k n) _ _ ?_
    exact down_run_le (Nat.le_max_left k n) (run_le (Nat.le_max_right k n) hn)

/-! ## What a walk keeps -/

variable {P : σ → Prop} {E : ε → σ → Prop}

/-- Entering and visiting keep `P`, where they throw nothing. -/
structure Keeps (w : Walk ε σ N) (P : σ → Prop) (E : ε → σ → Prop) : Prop where
  enter : ∀ path, path ≠ [] → Does (fun s => P s ∧ w.isDirectory s path = some true)
    (w.enter path) (fun _ => P) E
  visit : ∀ path, path ≠ [] → Does (fun s => P s ∧ w.isDirectory s path = some false)
    (w.visit path) (fun _ => P) E

theorem Keeps.item (h : w.Keeps P E) {below : List N → LoopM ε σ Unit} {path : List N}
    (hne : path ≠ []) (hbelow : Does P (below path) (fun _ => P) E) :
    Does P (w.item below path) (fun _ => P) E := by
  refine .get_bind fun s hs => ?_
  rcases hkind : w.isDirectory s path with _ | _ | _
  · exact .pure fun t ht => ht ▸ hs
  · exact (h.visit path hne).mono (fun t ht => ht ▸ ⟨hs, hkind⟩) (fun _ _ hq => hq) fun _ _ he => he
  · exact .bind ((h.enter path hne).mono (fun t ht => ht ▸ ⟨hs, hkind⟩) (fun _ _ hq => hq)
      fun _ _ he => he) fun _ => hbelow

theorem Keeps.down (h : w.Keeps P E) (k : Nat) (dir : List N) :
    Does P (w.down k dir) (fun _ => P) E := by
  induction k generalizing dir with
  | zero =>
    intro s r _ hr
    obtain ⟨n, hn⟩ := result_eq_some.mp hr
    cases hn
  | succ k ih =>
    refine .get_bind fun s hs => ?_
    refine (Does.forM fun n _ => h.item (by simp) (ih (dir ++ [n]))).mono (fun t ht => ht ▸ hs)
      (fun _ _ hq => hq) fun _ _ he => he

/-- **What a walk keeps**: what entering and visiting do. -/
theorem walk_does (h : w.Keeps P E) (dir : List N) : Does P (w.walk dir) (fun _ => P) E := by
  intro s r hs hr
  obtain ⟨k, hk⟩ := walk_result.mp hr
  exact h.down k dir s r hs hk

/-! ## Walks that end -/

/-- **A walk ends** where no directory is deeper than some bound, all the time. -/
theorem walk_ends (h : w.Keeps P E) {depth : Nat}
    (hdepth : ∀ s path, P s → w.isDirectory s path = some true → path.length ≤ depth)
    (henter : ∀ path s, (w.enter path).Ends s) (hvisit : ∀ path s, (w.visit path).Ends s)
    (dir : List N) (s : σ) (hs : P s) : (w.walk dir).Ends s := by
  -- the induction is on the levels that are left
  have hdown : ∀ k dir, depth < dir.length + k → 0 < k → ∀ s, P s → (w.down k dir).Ends s := by
    intro k
    induction k with
    | zero => exact fun _ _ hk => absurd hk (lt_irrefl 0)
    | succ k ih =>
      intro dir hlevels _ s hs
      refine ends_get_bind.mpr ?_
      refine forM_ends (fun n _ => h.item (by simp) (h.down k (dir ++ [n]))) ?_ s hs
      intro n _ t ht
      refine ends_get_bind.mpr ?_
      rcases hkind : w.isDirectory t (dir ++ [n]) with _ | _ | _
      · exact ends_of_result (result_pure () t)
      · exact hvisit (dir ++ [n]) t
      · have hlen : (dir ++ [n]).length ≤ depth := hdepth t _ ht hkind
        rw [List.length_append, List.length_singleton] at hlen
        refine (h.enter (dir ++ [n]) (by simp)).ends_bind (fun t _ => henter (dir ++ [n]) t) (fun _ => ?_) t
          ⟨ht, hkind⟩
        exact ih (dir ++ [n]) (by rw [List.length_append, List.length_singleton]; omega)
          (by omega)
  obtain ⟨r, hr⟩ := ends_iff.mp (hdown (depth + 1) dir (by omega) (by omega) s hs)
  exact ends_of_result (walk_result.mpr ⟨_, hr⟩)

/-! ## What a walk visits -/

/-- A path leads from a directory to what is no directory. -/
def Found (w : Walk ε σ N) (s : σ) (dir : List N) : List N → Prop
  | [] => False
  | [n] => n ∈ w.items s dir ∧ w.isDirectory s (dir ++ [n]) = some false
  | n :: path => n ∈ w.items s dir ∧ w.isDirectory s (dir ++ [n]) = some true ∧
      Found w s (dir ++ [n]) path

theorem forM_reaches {f : N → LoopM ε σ Unit} {l : List N} {n : N} {Q : σ → Prop} (hn : n ∈ l)
    (hP : ∀ n ∈ l, Does P (f n) (fun _ => P) E) (hQ : ∀ n ∈ l, Does Q (f n) (fun _ => Q) E)
    (hdone : Does P (f n) (fun _ => Q) E) : Does P (l.forM f) (fun _ => Q) E := by
  induction l with
  | nil => cases hn
  | cons m l ih =>
    rcases List.mem_cons.mp hn with rfl | hn
    · exact Does.bind hdone fun _ => Does.forM fun n' hn' => hQ n' (List.mem_cons_of_mem n hn')
    · exact Does.bind (hP m List.mem_cons_self) fun _ =>
        ih hn (fun n' hn' => hP n' (List.mem_cons_of_mem m hn'))
          fun n' hn' => hQ n' (List.mem_cons_of_mem m hn')

/-- **What can be found is visited.** `done` is what the visit leaves, and it is kept. -/
theorem walk_visits {done : σ → Prop} {dir path : List N} (hP : w.Keeps P E)
    (hkept : w.Keeps (fun s => P s ∧ done s) E)
    (hvisit : Does (fun s => P s ∧ w.isDirectory s (dir ++ path) = some false)
      (w.visit (dir ++ path)) (fun _ s => P s ∧ done s) E)
    (hfound : ∀ s, P s → Found w s dir path) :
    Does P (w.walk dir) (fun _ s => P s ∧ done s) E := by
  have hdown : ∀ k path' dir', dir' ++ path' = dir ++ path → (∀ s, P s → Found w s dir' path') →
      Does P (w.down k dir') (fun _ s => P s ∧ done s) E := by
    intro k
    induction k with
    | zero =>
      intro path' dir' _ _ s r _ hr
      obtain ⟨n, hn⟩ := result_eq_some.mp hr
      cases hn
    | succ k ih =>
      intro path' dir' hpath hfound
      refine .get_bind fun s hs => ?_
      cases path' with
      | nil => exact (hfound s hs).elim
      | cons n path' =>
        have hn : n ∈ w.items s dir' := by
          cases path' with
          | nil | cons _ _ => exact (hfound s hs).1
        have hlist : Does P ((w.items s dir').forM fun n => w.item (w.down k) (dir' ++ [n]))
            (fun _ s => P s ∧ done s) E := by
          refine forM_reaches hn (fun m _ => hP.item (by simp) (hP.down k (dir' ++ [m])))
            (fun m _ => hkept.item (by simp) (hkept.down k (dir' ++ [m]))) ?_
          refine .get_bind fun t ht => ?_
          cases path' with
          | nil =>
            rw [(hfound t ht).2, hpath]
            exact hvisit.mono (fun u hu => hu ▸ ⟨ht, hpath ▸ (hfound t ht).2⟩) (fun _ _ hq => hq)
              fun _ _ he => he
          | cons m path' =>
            have hkind := (hfound t ht).2.1
            rw [hkind]
            refine .bind ((hP.enter (dir' ++ [n]) (by simp)).mono (fun u hu => hu ▸ ⟨ht, hkind⟩)
              (fun _ _ hq => hq) fun _ _ he => he) fun _ => ?_
            exact ih (m :: path') (dir' ++ [n]) (by rw [← hpath]; simp)
              fun u hu => (hfound u hu).2.2
        exact hlist.mono (fun t ht => ht ▸ hs) (fun _ _ hq => hq) fun _ _ he => he
  intro s r hs hr
  obtain ⟨k, hk⟩ := walk_result.mp hr
  exact hdown k path dir rfl hfound s r hs hk

/-! ## Walks that do not end -/

/-- **A walk does not come to its end** where each directory of a chain is made, by entering
it, to hold the next one. `P j` is what holds when the one numbered `j` is listed. -/
theorem walk_never {P : Nat → σ → Prop} {chain : Nat → List N} {next : Nat → N}
    (hchain : ∀ j, chain (j + 1) = chain j ++ [next j]) (hkeeps : ∀ j, w.Keeps (P j) E)
    (hitem : ∀ j s, P j s → next j ∈ w.items s (chain j))
    (hdirectory : ∀ j s, P j s → w.isDirectory s (chain (j + 1)) = some true)
    (henter : ∀ j, Does (P j) (w.enter (chain (j + 1))) (fun _ => P (j + 1)) E) (j : Nat) :
    Does (P j) (w.walk (chain j)) (fun _ _ => False) E := by
  have hdown : ∀ k j, Does (P j) (w.down k (chain j)) (fun _ _ => False) E := by
    intro k
    induction k with
    | zero =>
      intro j s r _ hr
      obtain ⟨n, hn⟩ := result_eq_some.mp hr
      cases hn
    | succ k ih =>
      intro j
      refine .get_bind fun s hs => ?_
      have hlist : Does (P j) ((w.items s (chain j)).forM fun n =>
          w.item (w.down k) (chain j ++ [n])) (fun _ _ => False) E := by
        refine forM_reaches (hitem j s hs)
          (fun m _ => (hkeeps j).item (by simp) ((hkeeps j).down k (chain j ++ [m])))
          (fun m _ s _ hs => hs.elim) ?_
        rw [← hchain]
        refine .get_bind fun t ht => ?_
        rw [hdirectory j t ht]
        exact (Does.bind (henter j) fun _ => ih (j + 1)).mono (fun u hu => hu ▸ ht)
          (fun _ _ hq => hq) fun _ _ he => he
      exact hlist.mono (fun t ht => ht ▸ hs) (fun _ _ hq => hq) fun _ _ he => he
  intro s r hs hr
  obtain ⟨k, hk⟩ := walk_result.mp hr
  exact hdown k j s r hs hk

end Walk

end Lhatove
