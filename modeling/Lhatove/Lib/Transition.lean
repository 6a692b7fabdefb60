import Mathlib.Tactic

/-!
# Transition systems and the invariant rule

A component is modelled as a set of initial states and a labelled step
relation. Everything that is claimed of "every state of every run" goes through
`Reachable.invariant`; a claim about the runs *whose steps all meet a
condition* is the same rule for the restricted system (`System.restrict`).
-/

namespace Lhatove

universe u v

/-- A transition system with states `σ` and labels `ε` (operation, arguments
and whatever the environment chose). -/
structure System (σ : Type u) (ε : Type v) where
  init : σ → Prop
  step : σ → ε → σ → Prop

namespace System

variable {σ : Type u} {ε : Type v}

/-- The states that runs of the system reach. -/
inductive Reachable (S : System σ ε) : σ → Prop
  | init {s : σ} : S.init s → Reachable S s
  | step {s s' : σ} {e : ε} : Reachable S s → S.step s e s' → Reachable S s'

/-- The runs all of whose steps meet `good`. -/
def restrict (S : System σ ε) (good : σ → ε → Prop) : System σ ε where
  init := S.init
  step s e s' := good s e ∧ S.step s e s'

/-- **The invariant rule.** -/
theorem Reachable.invariant {S : System σ ε} {I : σ → Prop}
    (hinit : ∀ s, S.init s → I s)
    (hstep : ∀ s e s', I s → S.step s e s' → I s') {s : σ} (h : S.Reachable s) : I s := by
  induction h with
  | init h => exact hinit _ h
  | step _ h ih => exact hstep _ _ _ ih h

/-- The invariant rule for the runs that meet a condition: the condition may
be used at every step. -/
theorem Reachable.invariant_restrict {S : System σ ε} {good : σ → ε → Prop} {I : σ → Prop}
    (hinit : ∀ s, S.init s → I s)
    (hstep : ∀ s e s', I s → good s e → S.step s e s' → I s') {s : σ}
    (h : (S.restrict good).Reachable s) : I s :=
  Reachable.invariant (S := S.restrict good) hinit
    (fun s e s' hi hs => hstep s e s' hi hs.1 hs.2) h

theorem Reachable.restrict_step {S : System σ ε} {good : σ → ε → Prop} {s s' : σ}
    (h : (S.restrict good).Reachable s) (e : ε) (hgood : good s e) (hstep : S.step s e s') :
    (S.restrict good).Reachable s' :=
  .step h ⟨hgood, hstep⟩

theorem Reachable.of_restrict {S : System σ ε} {good : σ → ε → Prop} {s : σ}
    (h : (S.restrict good).Reachable s) : S.Reachable s := by
  induction h with
  | init h => exact .init h
  | step _ h ih => exact .step ih h.2

/-! ## Executable systems -/

/-- A system given by a partial function: `none` when the step faults, throws
without a next state, or is not possible. -/
def ofStep (init : σ → Prop) (f : σ → ε → Option σ) : System σ ε where
  init := init
  step s e s' := f s e = some s'

/-- The end state of a list of steps. -/
def run (f : σ → ε → Option σ) : σ → List ε → Option σ
  | s, [] => some s
  | s, e :: es => (f s e).bind fun s' => run f s' es

theorem run_append (f : σ → ε → Option σ) :
    ∀ (es fs : List ε) (s : σ), run f s (es ++ fs) = (run f s es).bind fun s' => run f s' fs
  | [], _, _ => rfl
  | e :: es, fs, s => by
    rw [List.cons_append, run, run, Option.bind_assoc]
    congr 1
    funext s'
    exact run_append f es fs s'

/-- Running a list of steps from a reachable state ends in a reachable state. -/
theorem Reachable.of_run {init : σ → Prop} {f : σ → ε → Option σ} :
    ∀ {es : List ε} {s s' : σ}, (ofStep init f).Reachable s → run f s es = some s' →
      (ofStep init f).Reachable s'
  | [], _, _, hs, h => Option.some.inj h ▸ hs
  | _ :: _, _, _, hs, h => by
    obtain ⟨s₁, h₁, h⟩ := Option.bind_eq_some_iff.mp h
    exact .of_run (.step hs h₁) h

end System

end Lhatove
