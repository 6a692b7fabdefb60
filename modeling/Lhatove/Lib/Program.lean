import Mathlib.Tactic

/-!
# Programs with a state and exceptions

Rules for programs of `EStateM`: what holds of the state that is left with a
result or an exception (`Keeps`, `Within`), and what is done without an exception
(`Ends`, `Quiet`).
-/

namespace Lhatove.Program

variable {ε σ α β : Type}

/-- The state that is left. -/
def final : EStateM.Result ε σ α → σ
  | .ok _ s => s
  | .error _ s => s

/-- The program keeps a property of the state. -/
def Keeps (P : σ → Prop) (x : EStateM ε σ α) : Prop := ∀ s, P s → P (final (x s))

/-- The state that is left is related to the one before. -/
def Within (R : σ → σ → Prop) (x : EStateM ε σ α) : Prop := ∀ s, R s (final (x s))

/-- From states with `P` the program ends in states with `Q`, without an exception. -/
def Ends (P : σ → Prop) (x : EStateM ε σ Unit) (Q : σ → Prop) : Prop :=
  ∀ s, P s → ∃ s', x s = .ok () s' ∧ Q s'

/-- The program ends in a state related to the one before, without an exception. -/
def Quiet (R : σ → σ → Prop) (x : EStateM ε σ Unit) : Prop :=
  ∀ s, ∃ s', x s = .ok () s' ∧ R s s'

/-! ## One program after another -/

theorem bind_ok {x : EStateM ε σ α} {f : α → EStateM ε σ β} {s s' : σ} {a : α}
    (h : x s = .ok a s') : (x >>= f) s = f a s' := by
  show EStateM.bind x f s = _
  rw [EStateM.bind, h]

theorem bind_error {x : EStateM ε σ α} {f : α → EStateM ε σ β} {s s' : σ} {e : ε}
    (h : x s = .error e s') : (x >>= f) s = .error e s' := by
  show EStateM.bind x f s = _
  rw [EStateM.bind, h]

theorem of_bind_ok {x : EStateM ε σ α} {f : α → EStateM ε σ β} {s u : σ} {b : β}
    (h : (x >>= f) s = .ok b u) : ∃ a t, x s = .ok a t ∧ f a t = .ok b u := by
  cases hx : x s with
  | ok a t =>
    rw [bind_ok hx] at h
    exact ⟨a, t, rfl, h⟩
  | error e t =>
    rw [bind_error hx] at h
    cases h

theorem Keeps.bind {P : σ → Prop} {x : EStateM ε σ α} {f : α → EStateM ε σ β} (hx : Keeps P x)
    (hf : ∀ a, Keeps P (f a)) : Keeps P (x >>= f) := by
  intro s hs
  have hnext := hx s hs
  cases h : x s with
  | ok a s' =>
    rw [h] at hnext
    rw [bind_ok h]
    exact hf a s' hnext
  | error e s' =>
    rw [h] at hnext
    rwa [bind_error h]

theorem Within.bind {R : σ → σ → Prop} [IsTrans σ R]
    {x : EStateM ε σ α} {f : α → EStateM ε σ β} (hx : Within R x) (hf : ∀ a, Within R (f a)) :
    Within R (x >>= f) := by
  intro s
  have hnext := hx s
  cases h : x s with
  | ok a s' =>
    rw [h] at hnext
    rw [bind_ok h]
    exact IsTrans.trans _ _ _ hnext (hf a s')
  | error e s' =>
    rw [h] at hnext
    rwa [bind_error h]

theorem Ends.bind {P Q R : σ → Prop} {x : EStateM ε σ Unit} {f : Unit → EStateM ε σ Unit}
    (hx : Ends P x Q) (hf : Ends Q (f ()) R) : Ends P (x >>= f) R := by
  intro s hs
  obtain ⟨s', h, hs'⟩ := hx s hs
  rw [bind_ok h]
  exact hf s' hs'

theorem Quiet.bind {R : σ → σ → Prop} [IsTrans σ R]
    {x : EStateM ε σ Unit} {f : Unit → EStateM ε σ Unit} (hx : Quiet R x) (hf : Quiet R (f ())) :
    Quiet R (x >>= f) := by
  intro s
  obtain ⟨t, h, hst⟩ := hx s
  obtain ⟨u, h', htu⟩ := hf t
  rw [bind_ok h]
  exact ⟨u, h', IsTrans.trans _ _ _ hst htu⟩

/-! ## From one kind of statement to another -/

theorem Quiet.within {R : σ → σ → Prop} {x : EStateM ε σ Unit} (hx : Quiet R x) : Within R x := by
  intro s
  obtain ⟨s', h, hs⟩ := hx s
  rwa [h]

theorem Within.keeps {R : σ → σ → Prop} {P : σ → Prop} {x : EStateM ε σ α} (hx : Within R x)
    (h : ∀ {s t}, R s t → P s → P t) : Keeps P x :=
  fun s hs => h (hx s) hs

theorem Quiet.ends {R : σ → σ → Prop} {P : σ → Prop} {x : EStateM ε σ Unit} (hx : Quiet R x)
    (h : ∀ {s t}, R s t → P s → P t) : Ends P x P := by
  intro s hs
  obtain ⟨s', hx, hss⟩ := hx s
  exact ⟨s', hx, h hss hs⟩

end Lhatove.Program
