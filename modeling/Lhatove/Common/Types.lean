import Mathlib.Tactic

/-!
# The type forest

Every class of the engine has a static `love::Type` that knows its parent's.
`isa` is answered from bit sets of ids that are handed out the first time a
type is asked anything.

- `Forest`: the types and their parents;
- `IsA`: the ancestors of a type, itself included, which form a chain;
- `Types.isa_eq`: what the bit sets answer is `IsA`, whatever was asked before.
-/

namespace Lhatove

/-- Types with parents; a parent was there before its children. -/
structure Forest (Ty : Type) where
  parent : Ty → Option Ty
  depth : Ty → Nat
  depth_parent : ∀ {t p}, parent t = some p → depth p < depth t

namespace Forest

variable {Ty : Type} (F : Forest Ty)

/-- `u` is `t` or one of the types it derives from. -/
def IsA (t u : Ty) : Prop := Relation.ReflTransGen (fun a b => F.parent a = some b) t u

variable {F}

theorem IsA.refl (t : Ty) : F.IsA t t := Relation.ReflTransGen.refl

theorem IsA.trans {t u v : Ty} (h : F.IsA t u) (h' : F.IsA u v) : F.IsA t v :=
  Relation.ReflTransGen.trans h h'

theorem isA_iff {t u : Ty} : F.IsA t u ↔ t = u ∨ ∃ p, F.parent t = some p ∧ F.IsA p u := by
  unfold IsA
  rw [Relation.ReflTransGen.cases_head_iff]

theorem IsA.total {t u v : Ty} (h : F.IsA t u) (h' : F.IsA t v) : F.IsA u v ∨ F.IsA v u :=
  Relation.ReflTransGen.total_of_right_unique
    (fun _ _ _ hb hc => Option.some.inj (hb.symm.trans hc)) h h'

theorem IsA.depth_le {t u : Ty} (h : F.IsA t u) : F.depth u ≤ F.depth t := by
  induction h with
  | refl => exact le_rfl
  | tail _ hp ih => exact (F.depth_parent hp).le.trans ih

theorem IsA.antisymm {t u : Ty} (h : F.IsA t u) (h' : F.IsA u t) : t = u := by
  rcases isA_iff.mp h with heq | ⟨p, hp, hpu⟩
  · exact heq
  · have := (hpu.depth_le.trans_lt (F.depth_parent hp)).trans_le h'.depth_le
    exact absurd this (lt_irrefl _)

section Decide

variable [DecidableEq Ty] (F)

/-- The walk from `t` towards the root, of at most `n` steps. -/
def isaWithin : Nat → Ty → Ty → Bool
  | 0, t, u => decide (t = u)
  | n + 1, t, u =>
    decide (t = u) ||
      match F.parent t with
      | none => false
      | some p => isaWithin n p u

/-- What `Type::isa` answers, see `Types.isa_eq`. -/
def isa (t u : Ty) : Bool := F.isaWithin (F.depth t) t u

variable {F}

theorem isaWithin_iff : ∀ (n : Nat) (t u : Ty), F.depth t ≤ n →
    (F.isaWithin n t u = true ↔ F.IsA t u)
  | 0, t, u, hn => by
    rw [isaWithin, decide_eq_true_iff, isA_iff]
    refine ⟨.inl, fun h => h.elim id ?_⟩
    rintro ⟨p, hp, -⟩
    exact absurd (F.depth_parent hp) (by omega)
  | n + 1, t, u, hn => by
    rw [isaWithin, Bool.or_eq_true, decide_eq_true_iff, isA_iff]
    refine or_congr_right ?_
    cases hp : F.parent t with
    | none => simp
    | some p =>
      have := F.depth_parent hp
      simpa using isaWithin_iff n p u (by omega)

theorem isa_iff {t u : Ty} : F.isa t u = true ↔ F.IsA t u := isaWithin_iff _ t u le_rfl

end Decide

end Forest

/-! ## Ids and bit sets -/

/-- The members of the `Type` objects that change: `id`, `inited` and `bits`,
and the counter `nextId`. -/
structure Types (Ty : Type) where
  id : Ty → Nat
  inited : Ty → Bool
  bits : Ty → Nat → Bool
  nextId : Nat

namespace Types

variable {Ty : Type} [DecidableEq Ty]

/-- Before anything was asked. -/
def start : Types Ty where
  id _ := 0
  inited _ := false
  bits _ _ := false
  nextId := 1

/-- The first half of `Type::init`: the type's own id. -/
def enter (t : Ty) (σ : Types Ty) : Types Ty where
  id := Function.update σ.id t σ.nextId
  inited := Function.update σ.inited t true
  bits := Function.update σ.bits t (Function.update (σ.bits t) σ.nextId true)
  nextId := σ.nextId + 1

/-- `bits |= parent->bits`. -/
def inherit (t p : Ty) (σ : Types Ty) : Types Ty :=
  { σ with bits := Function.update σ.bits t fun i => σ.bits t i || σ.bits p i }

/-- `Type::init()`. -/
def init (F : Forest Ty) (t : Ty) (σ : Types Ty) : Types Ty :=
  if σ.inited t then σ
  else
    match _h : F.parent t with
    | none => σ.enter t
    | some p => inherit t p (init F p (σ.enter t))
termination_by F.depth t
decreasing_by exact F.depth_parent _h

/-- `Type::isa(const Type &other)`. -/
def isa (F : Forest Ty) (t u : Ty) (σ : Types Ty) : Bool × Types Ty :=
  let σ := init F t σ
  (σ.bits t (σ.id u), σ)

/-- What is true of the type objects while `init` runs for the `busy` types: they
have ids and their own bit; every other type that has an id has the bits of
exactly its ancestors, and they have ids too. -/
structure Ready (F : Forest Ty) (busy : Ty → Prop) (σ : Types Ty) : Prop where
  pos : 0 < σ.nextId
  uninited : ∀ t, σ.inited t = false → σ.id t = 0 ∧ ∀ i, σ.bits t i = false
  inited : ∀ t, σ.inited t = true → 0 < σ.id t ∧ σ.id t < σ.nextId
  inj : ∀ t u, σ.inited t = true → σ.inited u = true → σ.id t = σ.id u → t = u
  running : ∀ t, busy t → σ.inited t = true ∧ ∀ i, σ.bits t i = true ↔ i = σ.id t
  up : ∀ t u, ¬ busy t → σ.inited t = true → F.IsA t u → σ.inited u = true
  bits : ∀ t i, ¬ busy t → σ.inited t = true →
    (σ.bits t i = true ↔ ∃ u, F.IsA t u ∧ σ.id u = i)

variable {F : Forest Ty} {busy : Ty → Prop} {σ : Types Ty}

omit [DecidableEq Ty] in
theorem start_ready (F : Forest Ty) : (start : Types Ty).Ready F fun _ => False := by
  refine ⟨Nat.one_pos, fun _ _ => ⟨rfl, fun _ => rfl⟩, ?_, ?_, ?_, ?_, ?_⟩
  all_goals intros; contradiction

theorem enter_ready (h : σ.Ready F busy) {t : Ty} (ht : σ.inited t = false) :
    (σ.enter t).Ready F fun u => busy u ∨ u = t := by
  have hid : (σ.enter t).id t = σ.nextId := Function.update_self ..
  have hids : ∀ u, u ≠ t → (σ.enter t).id u = σ.id u := fun u hu => Function.update_of_ne hu _ _
  have hini : (σ.enter t).inited t = true := Function.update_self ..
  have hinis : ∀ u, u ≠ t → (σ.enter t).inited u = σ.inited u :=
    fun u hu => Function.update_of_ne hu _ _
  have hbit : ∀ i, (σ.enter t).bits t i = true ↔ i = σ.nextId := by
    intro i
    rw [show (σ.enter t).bits t = _ from Function.update_self ..]
    by_cases hi : i = σ.nextId
    · simp [hi]
    · simp [hi, (h.uninited t ht).2 i]
  have hbits : ∀ u, u ≠ t → (σ.enter t).bits u = σ.bits u :=
    fun u hu => Function.update_of_ne hu _ _
  -- a type entered before is another one, with a smaller id
  have hold : ∀ u, (σ.enter t).inited u = true → u ≠ t → σ.inited u = true :=
    fun u hu hne => (hinis u hne) ▸ hu
  refine ⟨Nat.succ_pos _, fun u hu => ?_, fun u hu => ?_, fun u v hu hv huv => ?_, fun u hu => ?_,
    fun u v hu hui huv => ?_, fun u i hu hui => ?_⟩
  · have hne : u ≠ t := by
      rintro rfl
      rw [hini] at hu
      cases hu
    rw [hids u hne, hbits u hne]
    exact h.uninited u (hinis u hne ▸ hu)
  · by_cases hut : u = t
    · rw [hut, hid]
      exact ⟨h.pos, Nat.lt_succ_self _⟩
    · rw [hids u hut]
      obtain ⟨h₁, h₂⟩ := h.inited u (hold u hu hut)
      exact ⟨h₁, Nat.lt_succ_of_lt h₂⟩
  · by_cases hut : u = t <;> by_cases hvt : v = t
    · rw [hut, hvt]
    · rw [hut, hid, hids v hvt] at huv
      exact absurd (h.inited v (hold v hv hvt)).2 (huv ▸ lt_irrefl _)
    · rw [hvt, hid, hids u hut] at huv
      exact absurd (h.inited u (hold u hu hut)).2 (huv ▸ lt_irrefl _)
    · rw [hids u hut, hids v hvt] at huv
      exact h.inj u v (hold u hu hut) (hold v hv hvt) huv
  · rcases hu with hu | rfl
    · have hne : u ≠ t := by
        rintro rfl
        rw [(h.running u hu).1] at ht
        cases ht
      rw [hinis u hne, hbits u hne, hids u hne]
      exact h.running u hu
    · rw [hid]
      exact ⟨hini, hbit⟩
  · obtain ⟨hub, hut⟩ := not_or.mp hu
    by_cases hvt : v = t
    · rw [hvt]
      exact hini
    · rw [hinis v hvt]
      exact h.up u v hub (hold u hui hut) huv
  · obtain ⟨hub, hut⟩ := not_or.mp hu
    have hui' := hold u hui hut
    rw [hbits u hut, h.bits u i hub hui']
    refine exists_congr fun v => and_congr_right fun huv => ?_
    have hvt : v ≠ t := by
      rintro rfl
      rw [h.up u v hub hui' huv] at ht
      cases ht
    rw [hids v hvt]

theorem Ready.finish {t : Ty} (h : σ.Ready F fun u => busy u ∨ u = t)
    (hup : ∀ u, F.IsA t u → σ.inited u = true)
    (hbits : ∀ i, σ.bits t i = true ↔ ∃ u, F.IsA t u ∧ σ.id u = i) : σ.Ready F busy := by
  refine { h with running := fun u hu => h.running u (.inl hu), up := ?_, bits := ?_ }
  · intro u v hu hui huv
    by_cases hut : u = t
    · exact hup v (hut ▸ huv)
    · exact h.up u v (not_or.mpr ⟨hu, hut⟩) hui huv
  · intro u i hu hui
    by_cases hut : u = t
    · rw [hut]
      exact hbits i
    · exact h.bits u i (not_or.mpr ⟨hu, hut⟩) hui

theorem inherit_ready {t p : Ty} (h : σ.Ready F fun u => busy u ∨ u = t)
    (hbt : ∀ b, busy b → b ≠ t) (hp : F.parent t = some p) (hpbusy : ¬ (busy p ∨ p = t))
    (hpi : σ.inited p = true) : (inherit t p σ).Ready F busy := by
  obtain ⟨hti, htbits⟩ := h.running t (.inr rfl)
  have hself : ∀ i, (inherit t p σ).bits t i = true ↔ ∃ u, F.IsA t u ∧ σ.id u = i := by
    intro i
    rw [show (inherit t p σ).bits t = _ from Function.update_self .., Bool.or_eq_true, htbits,
      h.bits p i hpbusy hpi]
    constructor
    · rintro (rfl | ⟨u, hu, rfl⟩)
      · exact ⟨t, .refl t, rfl⟩
      · exact ⟨u, Forest.isA_iff.mpr (.inr ⟨p, hp, hu⟩), rfl⟩
    · rintro ⟨u, hu, rfl⟩
      rcases Forest.isA_iff.mp hu with rfl | ⟨p', hp', hu⟩
      · exact .inl rfl
      · cases hp.symm.trans hp'
        exact .inr ⟨u, hu, rfl⟩
  have hbits : ∀ u, u ≠ t → (inherit t p σ).bits u = σ.bits u :=
    fun u hu => Function.update_of_ne hu _ _
  refine ⟨h.pos, fun u hu => ?_, h.inited, h.inj, fun u hu => ?_, fun u v hu hui huv => ?_,
    fun u i hu hui => ?_⟩
  · have hut : u ≠ t := by
      rintro rfl
      exact Bool.false_ne_true (hu.symm.trans hti)
    rw [hbits u hut]
    exact h.uninited u hu
  · rw [hbits u (hbt u hu)]
    exact h.running u (.inl hu)
  · by_cases hut : u = t
    · subst hut
      rcases Forest.isA_iff.mp huv with rfl | ⟨p', hp', huv⟩
      · exact hti
      · cases hp.symm.trans hp'
        exact h.up p v hpbusy hpi huv
    · exact h.up u v (not_or.mpr ⟨hu, hut⟩) hui huv
  · by_cases hut : u = t
    · subst hut
      exact hself i
    · rw [hbits u hut]
      exact h.bits u i (not_or.mpr ⟨hu, hut⟩) hui

/-- **`init`** gives the type an id and the bits of its ancestors; the types
whose `init` it runs inside of keep what they have. -/
theorem init_ready (t : Ty) : ∀ {busy : Ty → Prop} {σ : Types Ty}, σ.Ready F busy →
    (∀ b, busy b → ¬ F.IsA t b) →
    (init F t σ).Ready F busy ∧ (init F t σ).inited t = true ∧
      ∀ b, busy b → (init F t σ).id b = σ.id b := by
  induction hd : F.depth t using Nat.strong_induction_on generalizing t with
  | _ d ih =>
    intro busy σ h hbusy
    unfold init
    split
    next ht =>
      exact ⟨h, ht, fun _ _ => rfl⟩
    next ht =>
      have ht' : σ.inited t = false := Bool.eq_false_iff.mpr ht
      have hentered := enter_ready h ht'
      have hbt : ∀ b, busy b → b ≠ t := by
        rintro b hb rfl
        exact hbusy b hb (.refl b)
      split
      · next hnone =>
        -- a root: its own bit is all there is to it
        have honly : ∀ u, F.IsA t u → u = t := by
          intro u hu
          rcases Forest.isA_iff.mp hu with heq | ⟨p, hp, -⟩
          · exact heq.symm
          · rw [hnone] at hp
            cases hp
        refine ⟨hentered.finish (fun u hu => honly u hu ▸ (hentered.running t (.inr rfl)).1)
          fun i => ?_, (hentered.running t (.inr rfl)).1,
          fun b hb => Function.update_of_ne (hbt b hb) _ _⟩
        rw [(hentered.running t (.inr rfl)).2 i]
        constructor
        · rintro rfl
          exact ⟨t, .refl t, rfl⟩
        · rintro ⟨u, hu, rfl⟩
          rw [honly u hu]
      · next p hp =>
        have htp : F.IsA t p := .single hp
        have hpt : ¬ F.IsA p t := fun hpt =>
          absurd (hpt.depth_le.trans_lt (F.depth_parent hp)) (lt_irrefl _)
        obtain ⟨h₂, hp₂, hkeep⟩ := ih (F.depth p) (hd ▸ F.depth_parent hp) p rfl hentered (by
          rintro b (hb | rfl)
          · exact fun hpb => hbusy b hb (htp.trans hpb)
          · exact hpt)
        have hpbusy : ¬ (busy p ∨ p = t) := by
          rintro (hb | rfl)
          · exact hbusy p hb htp
          · exact hpt (.refl _)
        refine ⟨inherit_ready h₂ hbt hp hpbusy hp₂, (h₂.running t (.inr rfl)).1, fun b hb => ?_⟩
        exact (hkeep b (.inl hb)).trans (Function.update_of_ne (hbt b hb) _ _)

/-- **`isa` answers whether the one type derives from the other**, whichever
types have been asked before. -/
theorem isa_eq (h : σ.Ready F fun _ => False) (t u : Ty) :
    ((isa F t u σ).1 = true ↔ F.IsA t u) ∧ (isa F t u σ).2.Ready F fun _ => False := by
  obtain ⟨hready, hinit, -⟩ := init_ready t h fun _ hb => hb.elim
  refine ⟨?_, hready⟩
  change (init F t σ).bits t ((init F t σ).id u) = true ↔ _
  rw [hready.bits t _ not_false hinit]
  constructor
  · rintro ⟨v, htv, hid⟩
    have hv := hready.up t v not_false hinit htv
    have hu : (init F t σ).inited u = true := by
      by_contra hu
      have hzero := (hready.uninited u (Bool.eq_false_iff.mpr hu)).1
      exact absurd (hready.inited v hv).1 (by rw [hid, hzero]; exact lt_irrefl _)
    exact hready.inj v u hv hu hid ▸ htv
  · exact fun htu => ⟨u, htu, rfl⟩

end Types

end Lhatove
