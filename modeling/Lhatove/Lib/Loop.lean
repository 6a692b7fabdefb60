import Mathlib.Tactic

/-!
# Programs that may not end

A program of `LoopM` has a state and may throw. It is run with a number of turns that no
loop in it may exceed, and what it makes of a state is what it makes with enough of them;
a program that never makes anything of a state does not end.

- `repeatM`: a loop, with its variables;
- `repeatM_ends`, `repeatM_never`: a loop with a measure ends, and one whose turns lead
  nowhere does not;
- `repeatM_post`, `Keeps`: what a loop ends with, and what a program keeps;
- `Maps`: a program is another one, seen through a function on states.
-/

namespace Lhatove

/-- A program with states `σ` and exceptions `ε`: more turns do not change a result. -/
structure LoopM (ε σ α : Type) where
  run : Nat → σ → Option (Except ε α × σ)
  mono : ∀ n s r, run n s = some r → run (n + 1) s = some r

namespace LoopM

variable {ε σ τ α β γ : Type}

/-! ## Programs -/

protected def pure (a : α) : LoopM ε σ α where
  run _ s := some (.ok a, s)
  mono _ _ _ h := h

protected def bind (x : LoopM ε σ α) (f : α → LoopM ε σ β) : LoopM ε σ β where
  run n s :=
    match x.run n s with
    | none => none
    | some (.error e, t) => some (.error e, t)
    | some (.ok a, t) => (f a).run n t
  mono n s r h := by
    rcases hx : x.run n s with _ | ⟨_ | a, t⟩
    · rw [hx] at h
      cases h
    · rw [hx] at h
      rw [x.mono n s _ hx]
      exact h
    · rw [hx] at h
      rw [x.mono n s _ hx]
      exact (f a).mono n t r h

instance : Monad (LoopM ε σ) where
  pure := LoopM.pure
  bind := LoopM.bind

def throw (e : ε) : LoopM ε σ α where
  run _ s := some (.error e, s)
  mono _ _ _ h := h

def get : LoopM ε σ σ where
  run _ s := some (.ok s, s)
  mono _ _ _ h := h

def modify (f : σ → σ) : LoopM ε σ Unit where
  run _ s := some (.ok (), f s)
  mono _ _ _ h := h

def set (t : σ) : LoopM ε σ Unit := modify fun _ => t

/-- At most `k` turns of a loop, whose body is run with `n`. Its variables go on as `inl`,
and it ends with `inr`. -/
def turns (body : β → LoopM ε σ (β ⊕ α)) (n : Nat) :
    Nat → β → σ → Option (Except ε α × σ)
  | 0, _, _ => none
  | k + 1, b, s =>
    match (body b).run n s with
    | none => none
    | some (.error e, t) => some (.error e, t)
    | some (.ok (.inl b), t) => turns body n k b t
    | some (.ok (.inr a), t) => some (.ok a, t)

theorem run_le {x : LoopM ε σ α} {n m : Nat} {s : σ} {r : Except ε α × σ} (hle : n ≤ m)
    (h : x.run n s = some r) : x.run m s = some r := by
  induction m, hle using Nat.le_induction with
  | base => exact h
  | succ m _ ih => exact x.mono m s r ih

theorem turns_le {body : β → LoopM ε σ (β ⊕ α)} {n m k l : Nat} {b : β} {s : σ}
    {r : Except ε α × σ} (hn : n ≤ m) (hk : k ≤ l) (h : turns body n k b s = some r) :
    turns body m l b s = some r := by
  induction k generalizing b s l with
  | zero => cases h
  | succ k ih =>
    obtain ⟨l, rfl⟩ : ∃ l', l = l' + 1 := ⟨l - 1, by omega⟩
    unfold turns at h ⊢
    rcases hb : (body b).run n s with _ | ⟨e | b' | a, t⟩
    · rw [hb] at h
      cases h
    · rw [hb] at h
      rw [run_le hn hb]
      exact h
    · rw [hb] at h
      rw [run_le hn hb]
      exact ih (Nat.le_of_succ_le_succ hk) h
    · rw [hb] at h
      rw [run_le hn hb]
      exact h

/-- A loop that starts with its variables as `b`. -/
def repeatM (body : β → LoopM ε σ (β ⊕ α)) (b : β) : LoopM ε σ α where
  run n s := turns body n n b s
  mono n _ _ h := turns_le n.le_succ n.le_succ h

/-! ## What a program makes of a state -/

open Classical in
/-- What is made with enough turns, if there are enough. -/
noncomputable def result (x : LoopM ε σ α) (s : σ) : Option (Except ε α × σ) :=
  if h : ∃ n r, x.run n s = some r then some h.choose_spec.choose else none

/-- The program ends, with a value or an exception. -/
def Ends (x : LoopM ε σ α) (s : σ) : Prop := ∃ n, (x.run n s).isSome = true

theorem result_of_run {x : LoopM ε σ α} {n : Nat} {s : σ} {r : Except ε α × σ}
    (h : x.run n s = some r) : x.result s = some r := by
  have hex : ∃ n r, x.run n s = some r := ⟨n, r, h⟩
  have hchosen := hex.choose_spec.choose_spec
  rw [result, dif_pos hex]
  have hm := run_le (Nat.le_max_left n hex.choose) h
  rw [run_le (Nat.le_max_right n hex.choose) hchosen] at hm
  exact hm

theorem result_eq_some {x : LoopM ε σ α} {s : σ} {r : Except ε α × σ} :
    x.result s = some r ↔ ∃ n, x.run n s = some r := by
  constructor
  · intro h
    have hex : ∃ n r, x.run n s = some r := by
      by_contra hnone
      rw [result, dif_neg hnone] at h
      cases h
    obtain ⟨n, r', hr'⟩ := hex
    rw [result_of_run hr'] at h
    cases h
    exact ⟨n, hr'⟩
  · rintro ⟨n, h⟩
    exact result_of_run h

theorem result_of_forall {x : LoopM ε σ α} {s : σ} {r : Option (Except ε α × σ)}
    (h : ∀ n, x.run n s = r) : x.result s = r := by
  cases hr : r with
  | some y => exact result_of_run ((h 0).trans hr)
  | none =>
    cases hx : x.result s with
    | none => rfl
    | some y =>
      obtain ⟨n, hn⟩ := result_eq_some.mp hx
      rw [h n, hr] at hn
      cases hn

theorem result_eq_none {x : LoopM ε σ α} {s : σ} :
    x.result s = none ↔ ∀ n, x.run n s = none := by
  rw [Option.eq_none_iff_forall_ne_some]
  constructor
  · intro h n
    cases hr : x.run n s with
    | none => rfl
    | some r => exact absurd (result_of_run hr) (h r)
  · intro h r hr
    obtain ⟨n, hn⟩ := result_eq_some.mp hr
    rw [h n] at hn
    cases hn

theorem ends_iff {x : LoopM ε σ α} {s : σ} : x.Ends s ↔ ∃ r, x.result s = some r := by
  constructor
  · rintro ⟨n, h⟩
    obtain ⟨r, hr⟩ := Option.isSome_iff_exists.mp h
    exact ⟨r, result_of_run hr⟩
  · rintro ⟨r, hr⟩
    obtain ⟨n, hn⟩ := result_eq_some.mp hr
    exact ⟨n, by rw [hn]; rfl⟩

theorem not_ends_iff {x : LoopM ε σ α} {s : σ} : ¬ x.Ends s ↔ x.result s = none := by
  rw [ends_iff, ← Option.ne_none_iff_exists', not_not]

@[simp] theorem result_pure (a : α) (s : σ) :
    (pure a : LoopM ε σ α).result s = some (.ok a, s) :=
  result_of_run (n := 0) rfl

@[simp] theorem result_throw (e : ε) (s : σ) :
    (throw e : LoopM ε σ α).result s = some (.error e, s) :=
  result_of_run (n := 0) rfl

@[simp] theorem result_get (s : σ) : (get : LoopM ε σ σ).result s = some (.ok s, s) :=
  result_of_run (n := 0) rfl

@[simp] theorem result_modify (f : σ → σ) (s : σ) :
    (modify f : LoopM ε σ Unit).result s = some (.ok (), f s) :=
  result_of_run (n := 0) rfl

@[simp] theorem result_set (s t : σ) :
    (set t : LoopM ε σ Unit).result s = some (.ok (), t) :=
  result_of_run (n := 0) rfl

theorem run_bind (x : LoopM ε σ α) (f : α → LoopM ε σ β) (n : Nat) (s : σ) :
    (x >>= f).run n s =
      match x.run n s with
      | none => none
      | some (.error e, t) => some (.error e, t)
      | some (.ok a, t) => (f a).run n t := rfl

theorem result_bind_ok {x : LoopM ε σ α} {f : α → LoopM ε σ β} {s t : σ} {a : α}
    (h : x.result s = some (.ok a, t)) : (x >>= f).result s = (f a).result t := by
  obtain ⟨n, hn⟩ := result_eq_some.mp h
  have hrun : ∀ m, n ≤ m → (x >>= f).run m s = (f a).run m t := by
    intro m hm
    rw [run_bind, run_le hm hn]
  cases hf : (f a).result t with
  | some r =>
    obtain ⟨m, hm⟩ := result_eq_some.mp hf
    refine result_of_run (n := max n m) ?_
    rw [hrun _ (Nat.le_max_left n m)]
    exact run_le (Nat.le_max_right n m) hm
  | none =>
    refine result_eq_none.mpr fun m => ?_
    cases hm : (x >>= f).run m s with
    | none => rfl
    | some r =>
      have hmax := run_le (Nat.le_max_right n m) hm
      rw [hrun _ (Nat.le_max_left n m), result_eq_none.mp hf] at hmax
      cases hmax

theorem result_bind_error {x : LoopM ε σ α} {f : α → LoopM ε σ β} {s t : σ} {e : ε}
    (h : x.result s = some (.error e, t)) : (x >>= f).result s = some (.error e, t) := by
  obtain ⟨n, hn⟩ := result_eq_some.mp h
  refine result_of_run (n := n) ?_
  rw [run_bind, hn]

theorem result_bind_none {x : LoopM ε σ α} {f : α → LoopM ε σ β} {s : σ}
    (h : x.result s = none) : (x >>= f).result s = none := by
  refine result_eq_none.mpr fun n => ?_
  rw [run_bind, result_eq_none.mp h]

theorem result_bind (x : LoopM ε σ α) (f : α → LoopM ε σ β) (s : σ) :
    (x >>= f).result s =
      match x.result s with
      | none => none
      | some (.error e, t) => some (.error e, t)
      | some (.ok a, t) => (f a).result t := by
  rcases hx : x.result s with _ | ⟨e | a, t⟩
  · exact result_bind_none hx
  · exact result_bind_error hx
  · exact result_bind_ok hx

theorem result_bind_some {x : LoopM ε σ α} {f : α → LoopM ε σ β} {s t : σ} {r : Except ε β}
    (h : (x >>= f).result s = some (r, t)) :
    (∃ e, x.result s = some (.error e, t) ∧ .error e = r) ∨
      ∃ a u, x.result s = some (.ok a, u) ∧ (f a).result u = some (r, t) := by
  rw [result_bind] at h
  rcases hx : x.result s with _ | ⟨e | a, u⟩ <;> rw [hx] at h
  · cases h
  · cases h
    exact .inl ⟨e, rfl, rfl⟩
  · exact .inr ⟨a, u, rfl, h⟩

theorem ends_of_result {x : LoopM ε σ α} {s : σ} {r : Except ε α × σ}
    (h : x.result s = some r) : x.Ends s := ends_iff.mpr ⟨r, h⟩

theorem ends_congr {x : LoopM ε σ α} {y : LoopM ε τ β} {s : σ} {t : τ}
    (h : x.result s = none ↔ y.result t = none) : x.Ends s ↔ y.Ends t := by
  rw [← not_iff_not, not_ends_iff, not_ends_iff]
  exact h

theorem ends_modify_bind {f : σ → σ} {g : Unit → LoopM ε σ β} {s : σ} :
    (modify f >>= g).Ends s ↔ (g ()).Ends (f s) :=
  ends_congr (by rw [result_bind_ok (result_modify f s)])

theorem ends_get_bind {g : σ → LoopM ε σ β} {s : σ} : (get >>= g).Ends s ↔ (g s).Ends s :=
  ends_congr (by rw [result_bind_ok (result_get s)])

theorem ends_bind_iff {x : LoopM ε σ α} {g : α → LoopM ε σ β} {s : σ}
    (hg : ∀ a t, (g a).Ends t) : (x >>= g).Ends s ↔ x.Ends s := by
  refine ends_congr ?_
  rcases hx : x.result s with _ | ⟨e | a, t⟩
  · rw [result_bind_none hx]
    exact iff_of_true rfl rfl
  · rw [result_bind_error hx]
    exact iff_of_false nofun nofun
  · rw [result_bind_ok hx]
    obtain ⟨r, hr⟩ := ends_iff.mp (hg a t)
    rw [hr]
    exact iff_of_false nofun nofun

/-! ## Loops -/

theorem repeatM_result (body : β → LoopM ε σ (β ⊕ α)) (b : β) (s : σ) :
    (repeatM body b).result s =
      match (body b).result s with
      | none => none
      | some (.error e, t) => some (.error e, t)
      | some (.ok (.inl b), t) => (repeatM body b).result t
      | some (.ok (.inr a), t) => some (.ok a, t) := by
  rcases hb : (body b).result s with _ | ⟨e | b' | a, t⟩
  · refine result_eq_none.mpr fun n => ?_
    cases n with
    | zero => rfl
    | succ n =>
      show turns body (n + 1) (n + 1) b s = none
      rw [turns, result_eq_none.mp hb]
  · obtain ⟨n, hn⟩ := result_eq_some.mp hb
    refine result_of_run (n := n + 1) ?_
    show turns body (n + 1) (n + 1) b s = _
    rw [turns, run_le n.le_succ hn]
  · obtain ⟨n, hn⟩ := result_eq_some.mp hb
    show (repeatM body b).result s = (repeatM body b').result t
    have hturn : ∀ m, n ≤ m + 1 → (repeatM body b).run (m + 1) s = turns body (m + 1) m b' t := by
      intro m hm
      show turns body (m + 1) (m + 1) b s = _
      rw [turns, run_le hm hn]
    cases hr : (repeatM body b').result t with
    | some r =>
      obtain ⟨m, hm⟩ := result_eq_some.mp hr
      refine result_of_run (n := max n m + 1) ?_
      rw [hturn _ (by omega)]
      exact turns_le (by omega) (by omega) hm
    | none =>
      refine result_eq_none.mpr fun m => ?_
      cases hm : (repeatM body b).run m s with
      | none => rfl
      | some r =>
        have hmax := run_le (show m ≤ max n m + 1 by omega) hm
        rw [hturn _ (by omega)] at hmax
        have hlater : (repeatM body b').run (max n m + 1) t = some r :=
          turns_le le_rfl (Nat.le_succ _) hmax
        rw [result_eq_none.mp hr] at hlater
        cases hlater
  · obtain ⟨n, hn⟩ := result_eq_some.mp hb
    refine result_of_run (n := n + 1) ?_
    show turns body (n + 1) (n + 1) b s = _
    rw [turns, run_le n.le_succ hn]

/-- What a turn of a loop leads to: the next turn with `N`, or the end with `Q`. -/
def Leads (N : β → σ → Prop) (Q : Except ε α → σ → Prop) : Except ε (β ⊕ α) → σ → Prop
  | .error e, t => Q (.error e) t
  | .ok (.inl b), t => N b t
  | .ok (.inr a), t => Q (.ok a) t

/-- **A loop ends** if each turn does, and makes a measure smaller. -/
theorem repeatM_ends {body : β → LoopM ε σ (β ⊕ α)} {P : β → σ → Prop}
    {Q : Except ε α → σ → Prop} (measure : β → σ → Nat)
    (hturn : ∀ b s, P b s → ∃ r t, (body b).result s = some (r, t) ∧
      Leads (fun b' t => P b' t ∧ measure b' t < measure b s) Q r t) {b : β} {s : σ}
    (h : P b s) : ∃ r t, (repeatM body b).result s = some (r, t) ∧ Q r t := by
  induction hm : measure b s using Nat.strong_induction_on generalizing b s with
  | _ m ih =>
    obtain ⟨r, t, hr, hleads⟩ := hturn b s h
    rw [repeatM_result, hr]
    rcases r with e | b' | a
    · exact ⟨.error e, t, rfl, hleads⟩
    · exact ih _ (hm ▸ hleads.2) hleads.1 rfl
    · exact ⟨.ok a, t, rfl, hleads⟩

/-- A loop does not end if each turn leads to one more. -/
theorem repeatM_never {body : β → LoopM ε σ (β ⊕ α)} {P : β → σ → Prop}
    (hturn : ∀ b s, P b s → ∀ r t, (body b).result s = some (r, t) →
      Leads P (fun _ _ => False) r t) {b : β} {s : σ} (h : P b s) :
    (repeatM body b).result s = none := by
  have hnone : ∀ n k b s, P b s → turns body n k b s = none := by
    intro n k
    induction k with
    | zero =>
      intro b s _
      rfl
    | succ k ih =>
      intro b s hP
      rw [turns]
      rcases hb : (body b).run n s with _ | ⟨e | b' | a, t⟩
      · rfl
      · exact (hturn b s hP _ t (result_of_run hb)).elim
      · exact ih b' t (hturn b s hP _ t (result_of_run hb))
      · exact (hturn b s hP _ t (result_of_run hb)).elim
  exact result_eq_none.mpr fun n => hnone n n b s h

/-- **A loop ends as each turn leads on**: what the turns keep of the variables and the state
holds before the last one. -/
theorem repeatM_post {body : β → LoopM ε σ (β ⊕ α)} {P : β → σ → Prop}
    {Q : Except ε α → σ → Prop}
    (hturn : ∀ b s, P b s → ∀ r t, (body b).result s = some (r, t) → Leads P Q r t) {b : β} {s : σ}
    (h : P b s) {r : Except ε α} {t : σ} (hr : (repeatM body b).result s = some (r, t)) :
    Q r t := by
  obtain ⟨n, hn⟩ := result_eq_some.mp hr
  have hall : ∀ k b s, P b s → turns body n k b s = some (r, t) → Q r t := by
    intro k
    induction k with
    | zero =>
      intro b s _ h
      cases h
    | succ k ih =>
      intro b s hP h
      rw [turns] at h
      rcases hb : (body b).run n s with _ | ⟨e | b' | a, u⟩ <;> rw [hb] at h
      · cases h
      · cases h
        exact hturn b s hP _ _ (result_of_run hb)
      · exact ih b' u (hturn b s hP _ _ (result_of_run hb)) h
      · cases h
        exact hturn b s hP _ _ (result_of_run hb)
  exact hall n b s h hn

theorem repeatM_keeps {body : β → LoopM ε σ (β ⊕ α)} {P : σ → Prop}
    (hturn : ∀ b s, P s → ∀ r t, (body b).result s = some (r, t) → P t) {b : β} {s : σ} (h : P s)
    {r : Except ε α} {t : σ} (hr : (repeatM body b).result s = some (r, t)) : P t := by
  refine repeatM_post (P := fun _ s => P s) (Q := fun _ t => P t) ?_ h hr
  intro b s hP r t ht
  have hkept := hturn b s hP r t ht
  rcases r with e | b' | a <;> exact hkept

/-- One turn of a loop leads from the first to the second. -/
def Goes (body : β → LoopM ε σ (β ⊕ α)) (x y : β × σ) : Prop :=
  (body x.1).result x.2 = some (.ok (.inl y.1), y.2)

/-- All turns that a loop comes to end. -/
def Covered (body : β → LoopM ε σ (β ⊕ α)) (b : β) (s : σ) : Prop :=
  ∀ x, Relation.ReflTransGen (Goes body) (b, s) x → (body x.1).Ends x.2

theorem Covered.next {body : β → LoopM ε σ (β ⊕ α)} {b b' : β} {s t : σ}
    (h : Covered body b s) (hgoes : (body b).result s = some (.ok (.inl b'), t)) :
    Covered body b' t :=
  fun x hx => h x (.head (show Goes body (b, s) (b', t) from hgoes) hx)

theorem covered_of_ends {body : β → LoopM ε σ (β ⊕ α)} {b : β} {s : σ}
    (h : (repeatM body b).Ends s) : Covered body b s := by
  have hfirst : ∀ {b s}, (repeatM body b).Ends s → (body b).Ends s := by
    intro b s hends
    by_contra hnot
    refine absurd hends (not_ends_iff.mpr ?_)
    rw [repeatM_result, not_ends_iff.mp hnot]
  intro x hx
  refine hfirst ?_
  induction hx with
  | refl => exact h
  | tail _ hgoes ih =>
    obtain ⟨r, hr⟩ := ends_iff.mp ih
    rw [repeatM_result, show _ = _ from hgoes] at hr
    exact ends_iff.mpr ⟨r, hr⟩

/-! ## Values -/

/-- Each value of a program has a property. -/
def Yields (x : LoopM ε σ α) (Q : α → Prop) : Prop :=
  ∀ s a t, x.result s = some (.ok a, t) → Q a

theorem Yields.pure {Q : α → Prop} {a : α} (h : Q a) : Yields (pure a : LoopM ε σ α) Q := by
  intro s a' t hr
  rw [result_pure] at hr
  cases hr
  exact h

theorem Yields.mono {Q Q' : α → Prop} {x : LoopM ε σ α} (h : Yields x Q)
    (hQ : ∀ a, Q a → Q' a) : Yields x Q' :=
  fun s a t hr => hQ a (h s a t hr)

theorem Yields.bind {Q : β → Prop} {x : LoopM ε σ α} {f : α → LoopM ε σ β}
    (h : ∀ a, Yields (f a) Q) : Yields (x >>= f) Q := by
  intro s b t hr
  obtain ⟨e, -, heq⟩ | ⟨a, u, -, hr⟩ := result_bind_some hr
  · cases heq
  · exact h a u b t hr

/-! ## What programs keep -/

/-- The program leaves a state with `P` where it finds one. -/
def Keeps (P : σ → Prop) (x : LoopM ε σ α) : Prop :=
  ∀ s, P s → ∀ r t, x.result s = some (r, t) → P t

section Keeps

variable {P : σ → Prop}

theorem Keeps.pure (a : α) : Keeps P (pure a : LoopM ε σ α) := by
  intro s hs r t hr
  rw [result_pure] at hr
  cases hr
  exact hs

theorem Keeps.get : Keeps P (get : LoopM ε σ σ) := by
  intro s hs r t hr
  rw [result_get] at hr
  cases hr
  exact hs

theorem Keeps.modify {f : σ → σ} (h : ∀ s, P s → P (f s)) :
    Keeps P (modify f : LoopM ε σ Unit) := by
  intro s hs r t hr
  rw [result_modify] at hr
  cases hr
  exact h s hs

theorem Keeps.bind {x : LoopM ε σ α} {f : α → LoopM ε σ β} (hx : Keeps P x)
    (hf : ∀ a, Keeps P (f a)) : Keeps P (x >>= f) := by
  intro s hs r t hr
  obtain ⟨e, hxs, -⟩ | ⟨a, u, hxs, hr⟩ := result_bind_some hr
  · exact hx s hs _ _ hxs
  · exact hf a u (hx s hs _ _ hxs) r t hr

theorem Keeps.get_bind {g : σ → LoopM ε σ β}
    (h : ∀ s, P s → ∀ r t, (g s).result s = some (r, t) → P t) : Keeps P (LoopM.get >>= g) := by
  intro s hs r t hr
  exact h s hs r t hr

theorem Keeps.repeatM {body : β → LoopM ε σ (β ⊕ α)} (h : ∀ b, Keeps P (body b)) (b : β) :
    Keeps P (repeatM body b) :=
  fun _ hs _ _ hr => repeatM_keeps h hs hr

end Keeps

/-- A program that does to a state what another one does to another state, and then `g`. -/
theorem result_map_of_run {x : LoopM ε σ α} {δ : Type} {y : LoopM δ τ β} {s : σ} {t : τ}
    (g : Except ε α × σ → Except δ β × τ) (h : ∀ n, y.run n t = (x.run n s).map g) :
    y.result t = (x.result s).map g := by
  cases hx : x.result s with
  | none =>
    refine result_eq_none.mpr fun n => ?_
    rw [h n, result_eq_none.mp hx n]
    rfl
  | some r =>
    obtain ⟨n, hn⟩ := result_eq_some.mp hx
    refine result_of_run (n := n) ?_
    rw [h n, hn]
    rfl

/-! ## Programs that are alike -/

/-- From this state, the second program does what the first does, to the state that `f`
makes of it; and a state with `P` is left. -/
structure MapsAt (P : σ → Prop) (f : σ → τ) (x : LoopM ε σ α) (y : LoopM ε τ α) (s : σ) :
    Prop where
  result : y.result (f s) = (x.result s).map (Prod.map id f)
  keeps : ∀ r t, x.result s = some (r, t) → P t

/-- From all states with `P`. -/
def Maps (P : σ → Prop) (f : σ → τ) (x : LoopM ε σ α) (y : LoopM ε τ α) : Prop :=
  ∀ s, P s → MapsAt P f x y s

section Maps

variable {P : σ → Prop} {f : σ → τ} {s : σ}

theorem MapsAt.of_some {x : LoopM ε σ α} {y : LoopM ε τ α} {r : Except ε α} {t : σ}
    (hx : x.result s = some (r, t)) (hy : y.result (f s) = some (r, f t)) (hP : P t) :
    MapsAt P f x y s := by
  refine ⟨by rw [hx, hy]; rfl, fun r' t' h => ?_⟩
  rw [hx] at h
  cases h
  exact hP

theorem MapsAt.of_none {x : LoopM ε σ α} {y : LoopM ε τ α} (hx : x.result s = none)
    (hy : y.result (f s) = none) : MapsAt P f x y s := by
  refine ⟨by rw [hx, hy]; rfl, fun r' t' h => ?_⟩
  rw [hx] at h
  cases h

theorem MapsAt.of_eq {x x' : LoopM ε σ α} {y y' : LoopM ε τ α} {s' : σ}
    (h : MapsAt P f x' y' s') (hx : x.result s = x'.result s')
    (hy : y.result (f s) = y'.result (f s')) : MapsAt P f x y s := by
  refine ⟨by rw [hx, hy]; exact h.result, fun r t hr => ?_⟩
  rw [hx] at hr
  exact h.keeps r t hr

theorem MapsAt.pure (hP : P s) (a : α) :
    MapsAt P f (pure a : LoopM ε σ α) (pure a) s :=
  .of_some (result_pure a s) (result_pure a (f s)) hP

theorem MapsAt.modify {u : σ → σ} {v : τ → τ} (hP : P (u s)) (hu : v (f s) = f (u s)) :
    MapsAt P f (LoopM.modify u : LoopM ε σ Unit) (LoopM.modify v) s :=
  .of_some (result_modify u s) (by rw [result_modify, hu]) hP

theorem MapsAt.bind {x : LoopM ε σ α} {y : LoopM ε τ α} {g : α → LoopM ε σ β}
    {h : α → LoopM ε τ β} (hx : MapsAt P f x y s)
    (hg : ∀ a t, P t → MapsAt P f (g a) (h a) t) : MapsAt P f (x >>= g) (y >>= h) s := by
  have hy := hx.result
  rcases hr : x.result s with _ | ⟨e | a, t⟩
  · rw [hr] at hy
    exact .of_none (result_bind_none hr) (result_bind_none hy)
  · rw [hr] at hy
    exact .of_some (result_bind_error hr) (result_bind_error hy) (hx.keeps _ t hr)
  · rw [hr] at hy
    exact (hg a t (hx.keeps _ t hr)).of_eq (result_bind_ok hr) (result_bind_ok hy)

theorem MapsAt.get_bind {g : σ → LoopM ε σ β} {h : τ → LoopM ε τ β}
    (hg : MapsAt P f (g s) (h (f s)) s) : MapsAt P f (get >>= g) (get >>= h) s := by
  refine ⟨?_, fun r t hr => ?_⟩
  · exact hg.result
  · exact hg.keeps r t hr

/-- Loops are alike if their bodies are. -/
theorem Maps.repeatM {body : β → LoopM ε σ (β ⊕ α)} {body' : β → LoopM ε τ (β ⊕ α)}
    (hbody : ∀ b, Maps P f (body b) (body' b)) (b : β) :
    Maps P f (repeatM body b) (repeatM body' b) := by
  have hsome : ∀ n k b s r, P s → turns body n k b s = some r →
      (LoopM.repeatM body' b).result (f s) = some (r.1, f r.2) ∧ P r.2 := by
    intro n k
    induction k with
    | zero =>
      intro b s r _ h
      cases h
    | succ k ih =>
      intro b s r hP h
      obtain ⟨hresult, hkeeps⟩ := hbody b s hP
      rw [turns] at h
      rw [repeatM_result]
      rcases hb : (body b).run n s with _ | ⟨e | b' | a, t⟩ <;> rw [hb] at h
      · cases h
      all_goals
        have hfirst := result_of_run hb
        rw [hfirst] at hresult
        rw [hresult]
      · cases h
        exact ⟨rfl, hkeeps _ t hfirst⟩
      · exact ih b' t r (hkeeps _ t hfirst) h
      · cases h
        exact ⟨rfl, hkeeps _ t hfirst⟩
  have hback : ∀ n k b s r, P s → turns body' n k b (f s) = some r →
      ∃ r', (LoopM.repeatM body b).result s = some r' := by
    intro n k
    induction k with
    | zero =>
      intro b s r _ h
      cases h
    | succ k ih =>
      intro b s r hP h
      obtain ⟨hresult, hkeeps⟩ := hbody b s hP
      rw [turns] at h
      rw [repeatM_result]
      rcases hb : (body b).result s with _ | ⟨e | b' | a, t⟩ <;> rw [hb] at hresult
      · rw [result_eq_none.mp hresult n] at h
        cases h
      · exact ⟨_, rfl⟩
      · cases hrun : (body' b).run n (f s) with
        | none =>
          rw [hrun] at h
          cases h
        | some x =>
          have hx := result_of_run hrun
          rw [hresult] at hx
          cases hx
          rw [hrun] at h
          exact ih b' t r (hkeeps _ t hb) h
      · exact ⟨_, rfl⟩
  intro s hP
  cases hr : (LoopM.repeatM body b).result s with
  | some r =>
    obtain ⟨n, hn⟩ := result_eq_some.mp hr
    obtain ⟨hresult, hkept⟩ := hsome n n b s r hP hn
    refine ⟨by rw [hresult, hr]; rfl, fun r' t h => ?_⟩
    rw [hr] at h
    cases h
    exact hkept
  | none =>
    refine ⟨?_, fun r t h => ?_⟩
    · rw [hr]
      refine result_eq_none.mpr fun n => ?_
      cases hn : (LoopM.repeatM body' b).run n (f s) with
      | none => rfl
      | some r =>
        obtain ⟨r', hr'⟩ := hback n n b s r hP hn
        rw [hr] at hr'
        cases hr'
    · rw [hr] at h
      cases h

theorem MapsAt.ends_iff {x : LoopM ε σ α} {y : LoopM ε τ α} (h : MapsAt P f x y s) :
    x.Ends s ↔ y.Ends (f s) := by
  rw [LoopM.ends_iff, LoopM.ends_iff, h.result]
  cases x.result s with
  | none | some r => simp

end Maps

end LoopM

end Lhatove
