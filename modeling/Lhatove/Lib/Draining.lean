import Lhatove.Lib.Loop

/-!
# Reading to the end

`drain` takes one piece after another, until there is no more to be had.

- `drain_strides`: if each piece is as long as the others, up to the last one, which is shorter,
  then the pieces are together all that there was;
- `drain_once`: one piece and no more;
- `drain_first`: the first piece is among the pieces.
-/

namespace Lhatove.LoopM

variable {ε σ α γ : Type}

/-- One turn: a piece, if the state is not a finished one. -/
def drainTurn (next : LoopM ε σ γ) (finished : σ → Bool) (pieces : List γ) :
    LoopM ε σ (List γ ⊕ List γ) := do
  let s ← get
  if finished s = true then
    return .inr pieces
  else
    let piece ← next
    return .inl (pieces ++ [piece])

/-- The pieces that `next` gives, until the state is a finished one. -/
def drain (next : LoopM ε σ γ) (finished : σ → Bool) : LoopM ε σ (List γ) :=
  repeatM (drainTurn next finished) []

section Turn

variable {next : LoopM ε σ γ} {finished : σ → Bool} {pieces : List γ} {s t : σ} {piece : γ}

theorem drainTurn_finished (h : finished s = true) :
    (drainTurn next finished pieces).result s = some (.ok (.inr pieces), s) := by
  rw [drainTurn, result_bind_ok (result_get s), if_pos h, result_pure]

theorem drainTurn_next (h : finished s = false) (hnext : next.result s = some (.ok piece, t)) :
    (drainTurn next finished pieces).result s = some (.ok (.inl (pieces ++ [piece])), t) := by
  rw [drainTurn, result_bind_ok (result_get s), if_neg (by rw [h]; exact Bool.false_ne_true),
    result_bind_ok hnext, result_pure]

end Turn

/-- What one reading does with what is left: it takes `c` of it, and the source is finished
where there was less. -/
structure Strides (finished : σ → Bool) (rest : σ → List α) (content : γ → List α) (c : Nat)
    (s : σ) (piece : γ) (t : σ) : Prop where
  content_eq : content piece = (rest s).take c
  rest_eq : rest t = (rest s).drop c
  finished_iff : finished t = true ↔ (rest s).length < c

/-- **Reading by strides gives everything**, in order. -/
theorem drain_strides {next : LoopM ε σ γ} {finished : σ → Bool} {rest : σ → List α}
    {content : γ → List α} {Inv : σ → Prop} {Good : γ → Prop} {c : Nat} (hc : 0 < c)
    (hnext : ∀ s, Inv s → finished s = false → ∃ piece t, next.result s = some (.ok piece, t) ∧
      Inv t ∧ Good piece ∧ Strides finished rest content c s piece t)
    {s : σ} (hs : Inv s) (hstart : finished s = false) :
    ∃ pieces t, (drain next finished).result s = some (.ok pieces, t) ∧
      (∀ p ∈ pieces, Good p) ∧ (pieces.map content).flatten = rest s := by
  -- while it is not finished, what was read and what is left are all there was
  have hall := @repeatM_ends ε σ (List γ) (List γ) (drainTurn next finished)
    (fun pieces t => Inv t ∧ (∀ p ∈ pieces, Good p) ∧
      (pieces.map content).flatten ++ rest t = rest s ∧ (finished t = true → rest t = []))
    (fun r _ => ∃ pieces, r = .ok pieces ∧ (∀ p ∈ pieces, Good p) ∧
      (pieces.map content).flatten = rest s)
    (fun _ t => (rest t).length + if finished t = true then 0 else 1) ?_ [] s
    ⟨hs, by simp, by simp, by rw [hstart]; simp⟩
  · obtain ⟨r, t, hr, pieces, rfl, hgood, hflat⟩ := hall
    exact ⟨pieces, t, hr, hgood, hflat⟩
  · rintro pieces u ⟨hinv, hgood, htogether, hempty⟩
    cases hfin : finished u with
    | true =>
      refine ⟨_, u, drainTurn_finished hfin, pieces, rfl, hgood, ?_⟩
      rw [← htogether, hempty hfin, List.append_nil]
    | false =>
      obtain ⟨piece, t, hread, hinv', hpiece, hstride⟩ := hnext u hinv hfin
      refine ⟨_, t, drainTurn_next hfin hread, ⟨hinv', ?_, ?_, ?_⟩, ?_⟩
      · intro p hp
        rcases List.mem_append.mp hp with hp | hp
        · exact hgood p hp
        · rw [List.mem_singleton.mp hp]
          exact hpiece
      · rw [← htogether, List.map_append, List.flatten_append, List.map_singleton,
          List.flatten_singleton, hstride.content_eq, hstride.rest_eq, List.append_assoc,
          List.take_append_drop]
      · intro hlast
        rw [hstride.rest_eq]
        exact List.drop_of_length_le (hstride.finished_iff.mp hlast).le
      · rw [hstride.rest_eq, List.length_drop, @if_neg (false = true) _ Bool.false_ne_true]
        split_ifs with hlast
        · omega
        · have hmore : ¬ (rest u).length < c := fun h => hlast (hstride.finished_iff.mpr h)
          omega

theorem drain_once {next : LoopM ε σ γ} {finished : σ → Bool} {s t : σ} {piece : γ}
    (hstart : finished s = false) (hnext : next.result s = some (.ok piece, t))
    (hlast : finished t = true) : (drain next finished).result s = some (.ok [piece], t) := by
  rw [drain, repeatM_result, drainTurn_next hstart hnext]
  show (repeatM _ ([] ++ [piece])).result t = _
  rw [repeatM_result, drainTurn_finished hlast]
  rfl

theorem drain_first {next : LoopM ε σ γ} {finished : σ → Bool} {s t u : σ} {piece : γ}
    {pieces : List γ} (hstart : finished s = false)
    (hnext : next.result s = some (.ok piece, t))
    (h : (drain next finished).result s = some (.ok pieces, u)) : piece ∈ pieces := by
  rw [drain, repeatM_result, drainTurn_next hstart hnext] at h
  refine repeatM_post (P := fun ps _ => piece ∈ ps)
    (Q := fun r _ => ∀ ps, r = .ok ps → piece ∈ ps) ?_ (by simp) h pieces rfl
  intro ps v hmem r w hr
  cases hfin : finished v with
  | true =>
    rw [drainTurn_finished hfin] at hr
    cases hr
    rintro _ ⟨⟩
    exact hmem
  | false =>
    rw [drainTurn, result_bind_ok (result_get v),
      if_neg (by rw [hfin]; exact Bool.false_ne_true)] at hr
    obtain ⟨e, -, rfl⟩ | ⟨p, x, -, hr⟩ := result_bind_some hr
    · rintro _ ⟨⟩
    · rw [result_pure] at hr
      cases hr
      exact List.mem_append_left _ hmem

end Lhatove.LoopM
