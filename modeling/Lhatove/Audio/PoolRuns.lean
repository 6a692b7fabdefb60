import Lhatove.Audio.PoolMoves

/-!
# Runs of a pool

Each call of `PoolOp` is a series of moves, from one point where no source is on its way
to another.

- `Suitable`: the calls for which it is;
- `step_moves`: a call is a series of moves;
- `Consistent`, `pool_consistent`: what holds of the pool in runs of such calls.
-/

namespace Lhatove.Audio

open Device List

/-- The point where no source is on its way. -/
def rest (d : Device) : Point := ⟨fun _ => .idle, d⟩

/-- Nothing is queued for a queueable source. -/
def Device.Drained (d : Device) (k : Nat) : Prop :=
  ∀ s, d.heap k = some s → s.sourceType = .queue → (d.view k).queued = []

section Sources

variable {A : Prop} {d : Device} {k id : Nat} {s : Source}

theorem rest_update (f : Nat → Phase) (k : Nat) (φ : Phase) (hk : f k = .idle) :
    Function.update (Function.update f k φ) k .idle = f := by
  rw [Function.update_idem, ← hk, Function.update_eq_self]

theorem Inv.alive {p : Point} (h : Inv p) (howner : 0 < p.device.owners k) :
    ∃ s, p.device.heap k = some s := by
  cases hs : p.device.heap k with
  | none =>
    have hgone := ((h.key k).gone hs).2
    exact absurd howner (by rw [show p.device.owners k = 0 from hgone]; decide)
  | some s => exact ⟨s, rfl⟩

theorem Inv.playing_alive {p : Point} (h : Inv p)
    (hid : p.device.pool.playing.lookup k = some id) : ∃ s, p.device.heap k = some s := by
  cases hs : p.device.heap k with
  | none =>
    have hgone := ((h.key k).gone hs).1
    exact absurd (hid.symm.trans hgone) (Option.some_ne_none _)
  | some s => exact ⟨s, rfl⟩

theorem rest_valid (h : Inv (rest d)) (hs : d.heap k = some s) :
    s.valid = true ↔ d.pool.playing.lookup k ≠ none := by
  have hvalid := (h.key k).valid s hs
  rw [hvalid]
  exact ⟨fun hboth => hboth.1, fun hne => ⟨hne, rfl⟩⟩

theorem rest_source (h : Inv (rest d)) (hs : d.heap k = some s)
    (hid : d.pool.playing.lookup k = some id) : s.source = id :=
  (h.key k).source s id hs hid (fun heq => by cases heq)

theorem setValid_self (hs : d.heap k = some s) : d.setValid k s.valid = d := by
  rw [setValid, useSource_some hs]
  change { d with heap := Function.update d.heap k (some s) } = d
  rw [← hs, Function.update_eq_self]

theorem setValid_stopped (h : Inv (rest d)) (hs : d.heap k = some s)
    (hid : d.pool.playing.lookup k = none) : d.setValid k false = d := by
  have hvalid : s.valid = false :=
    Bool.eq_false_of_not_eq_true fun htrue => (rest_valid h hs).mp htrue hid
  rw [← hvalid, setValid_self hs]

theorem setValid_playing (h : Inv (rest d)) (hs : d.heap k = some s)
    (hid : d.pool.playing.lookup k ≠ none) : d.setValid k true = d := by
  have hvalid := (rest_valid h hs).mpr hid
  rw [← hvalid, setValid_self hs]

/-! ### Stopping -/

/-- A source gives its id back; all others stay as they are. -/
structure Stopped (k : Nat) (d d' : Device) : Prop where
  others : ∀ j ≠ k, d'.view j = d.view j
  lookup : d'.pool.playing.lookup k = none

theorem moves_teardown (h : Inv (rest d)) (hs : d.heap k = some s) (hvalid : s.valid = true)
    (hid : d.pool.playing.lookup k = some id) (hdrained : A → d.Drained k) :
    Moves A (rest d) (rest (((d.teardownAtomic k s).release k).giveBack k id)) ∧
      Stopped k d (((d.teardownAtomic k s).release k).giveBack k id) := by
  have hsource := rest_source h hs hid
  have hqueued : (d.view k).queued = d.queued s.source := by
    rw [view_playing hs hid, hsource]
  have hteardown : Move A (rest d)
      ⟨Function.update (rest d).phase k .assigned, d.teardownAtomic k s⟩ :=
    move_teardown h hs hvalid fun haccount hqueue => hqueued ▸ hdrained haccount s hs hqueue
  have hs' : (d.teardownAtomic k s).heap k =
      some (s.teardownAtomic (d.queued s.source)) := by
    simp [Device.teardownAtomic]
  have hgiveBack := move_giveBack (A := A) (hteardown.inv h) hs' hid
    (Function.update_self _ _ _)
  have hphase := rest_update (rest d).phase k .assigned rfl
  rw [hphase] at hgiveBack
  refine ⟨.tail hteardown.moves hgiveBack, ?_, ?_⟩
  · intro j hj
    rw [view_giveBack_ne hs' Source.teardownAtomic_valid hj]
    exact view_teardown_ne h.ids (hsource ▸ hid) hj
  · simp [giveBack, setPool]

theorem moves_releaseSource (h : Inv (rest d)) (hs : d.heap k = some s)
    (hid : d.pool.playing.lookup k = some id) (hdrained : A → d.Drained k) :
    Moves A (rest d) (rest (d.releaseSource k true)) ∧
      Stopped k d (d.releaseSource k true) := by
  have hvalid := (rest_valid h hs).mpr (by rw [hid]; exact Option.some_ne_none _)
  rw [releaseSource, hid]
  rw [if_pos rfl, stopAtomic, useSource_some hs, if_pos hvalid]
  exact moves_teardown h hs hvalid hid hdrained

theorem moves_stop (h : Inv (rest d)) (hs : d.heap k = some s)
    (hdrained : A → d.Drained k) :
    Moves A (rest d) (rest (d.stop k)) ∧ Stopped k d (d.stop k) := by
  rw [stop, useSource_some hs]
  split
  next hvalid =>
    obtain ⟨id, hid⟩ := Option.ne_none_iff_exists'.mp ((rest_valid h hs).mp hvalid)
    exact moves_releaseSource h hs hid hdrained
  next hvalid =>
    refine ⟨.refl, fun _ _ => rfl, ?_⟩
    by_contra hid
    exact hvalid ((rest_valid h hs).mpr hid)

/-! ### What calls on a source keep -/

/-- The references of others are the same, and every source has its type. -/
structure Kept (d d' : Device) : Prop where
  owners : d'.owners = d.owners
  type : ∀ k s', d'.heap k = some s' → ∃ s, d.heap k = some s ∧ s'.sourceType = s.sourceType

theorem Kept.refl (d : Device) : Kept d d := ⟨rfl, fun _ s hs => ⟨s, hs, rfl⟩⟩

theorem Kept.trans {d₁ d₂ d₃ : Device} (h₁ : Kept d₁ d₂) (h₂ : Kept d₂ d₃) : Kept d₁ d₃ := by
  refine ⟨h₂.owners.trans h₁.owners, ?_⟩
  intro k s' hs'
  obtain ⟨s₂, hs₂, htype₂⟩ := h₂.type k s' hs'
  obtain ⟨s₁, hs₁, htype₁⟩ := h₁.type k s₂ hs₂
  exact ⟨s₁, hs₁, htype₂.trans htype₁⟩

theorem Kept.of_eq {d' : Device} (howners : d'.owners = d.owners) (hheap : d'.heap = d.heap) :
    Kept d d' := ⟨howners, fun k s' hs' => ⟨s', by rw [← hheap]; exact hs', rfl⟩⟩

theorem kept_setSource {s' : Source} (hs : d.heap k = some s)
    (htype : s'.sourceType = s.sourceType) : Kept d (d.setSource k s') := by
  refine ⟨rfl, ?_⟩
  intro j s'' hs''
  by_cases hj : j = k
  · subst hj
    rw [setSource_heap, Function.update_self] at hs''
    cases hs''
    exact ⟨s, hs, htype⟩
  · rw [setSource_heap, Function.update_of_ne hj] at hs''
    exact ⟨s'', hs'', rfl⟩

theorem kept_free : Kept d (d.free k) := by
  refine ⟨rfl, ?_⟩
  intro j s' hs'
  change Function.update d.heap k none j = some s' at hs'
  by_cases hj : j = k
  · subst hj
    rw [Function.update_self] at hs'
    cases hs'
  · rw [Function.update_of_ne hj] at hs'
    exact ⟨s', hs', rfl⟩

theorem kept_useSource {f : Source → Device} (hf : ∀ s, d.heap k = some s → Kept d (f s)) :
    Kept d (d.useSource k f) := by
  rw [useSource]
  split
  · exact .of_eq rfl rfl
  next s hs => exact hf s hs

theorem kept_destroy : Kept d (d.destroy k s) := by
  rw [destroy]
  split
  · split
    · exact kept_free
    · refine .trans ?_ kept_free
      exact .of_eq rfl rfl
  · exact kept_free

theorem kept_release : Kept d (d.release k) := by
  refine kept_useSource fun s hs => ?_
  split
  · exact kept_destroy
  · exact kept_setSource hs rfl

theorem kept_retain : Kept d (d.retain k) := kept_useSource fun _ hs => kept_setSource hs rfl

theorem kept_setValid (valid : Bool) : Kept d (d.setValid k valid) :=
  kept_useSource fun _ hs => kept_setSource hs rfl

theorem prepareAtomic_type (chunks : List Chunk) :
    (s.prepareAtomic chunks).1.sourceType = s.sourceType := by
  rw [Source.prepareAtomic]
  split <;> rfl

theorem kept_prepare (chunks : List Chunk) : Kept d (d.prepare k id chunks) :=
  kept_useSource fun s hs =>
    (kept_setSource hs (prepareAtomic_type (s := { s with source := id }) chunks)).trans
      (.of_eq rfl rfl)

theorem kept_teardownAtomic (hs : d.heap k = some s) : Kept d (d.teardownAtomic k s) := by
  refine (kept_setSource hs ?_).trans (.of_eq rfl rfl)
  rw [Source.teardownAtomic]
  split <;> rfl

theorem kept_stopAtomic : Kept d (d.stopAtomic k) := by
  refine kept_useSource fun s hs => ?_
  split
  · exact kept_teardownAtomic hs
  · exact .refl d

theorem kept_releaseSource (stop : Bool) : Kept d (d.releaseSource k stop) := by
  rw [releaseSource]
  split
  · exact .refl d
  · refine .trans ?_ (kept_release.trans (.of_eq rfl rfl))
    split
    · exact kept_stopAtomic
    · exact .refl d

theorem kept_stop : Kept d (d.stop k) := by
  refine kept_useSource fun s hs => ?_
  split
  · exact kept_releaseSource true
  · exact .refl d

theorem kept_takeId (available : List Nat) : Kept d (d.takeId k id available) := by
  refine .trans ?_ kept_retain
  exact .of_eq rfl rfl

theorem kept_assignSource : Kept d (d.assignSource k).2 := by
  rw [assignSource]
  split
  · exact .refl d
  · split
    · exact .refl d
    · exact kept_takeId _

theorem kept_playAtomic (a : PlayAnswers) : Kept d (d.playAtomic k id a).2 := by
  rw [playAtomic]
  split
  · exact .of_eq rfl rfl
  · split
    · exact kept_prepare a.chunks
    · exact (kept_prepare a.chunks).trans ((kept_setValid true).trans kept_stop)

theorem kept_resumeAtomic (a : PlayAnswers) : Kept d (d.resumeAtomic k a) := by
  refine kept_useSource fun s hs => ?_
  split
  · exact kept_stop
  · exact .refl d

theorem kept_play (a : PlayAnswers) : Kept d (d.play k a).2 := by
  have hassign := kept_assignSource (d := d) (k := k)
  rw [play]
  split
  next d' heq =>
    rw [heq] at hassign
    exact hassign.trans (kept_setValid false)
  next out wasPlaying d' heq =>
    rw [heq] at hassign
    split
    · exact hassign.trans ((kept_resumeAtomic a).trans (kept_setValid true))
    · exact hassign.trans ((kept_playAtomic a).trans (kept_setValid _))

/-! ### Playing -/

theorem moves_playAtomic (h : Inv (rest d)) (hs : d.heap k = some s)
    (howner : 0 < d.owners k) (hid : d.pool.playing.lookup k = none) {available : List Nat}
    (havailable : d.pool.available = id :: available) (a : PlayAnswers)
    (hfails : A → s.sourceType = .queue → a.error ≠ .noError → s.streamBuffers = []) :
    Moves A (rest d) (rest (d.play k a).2) := by
  have hassign : Move A (rest d) ⟨_, d.takeId k id available⟩ :=
    move_takeId h hs hid havailable
  rw [play, assignSource_fresh hid havailable]
  dsimp only
  rw [if_neg Bool.false_ne_true]
  have hs₁ : (d.takeId k id available).heap k = some { s with count := s.count + 1 } := by
    rw [takeId_eq hs]
    exact Function.update_self _ _ _
  have hid₁ : (d.takeId k id available).pool.playing.lookup k = some id := by
    rw [takeId_eq hs]
    exact AList.lookup_insert _
  have howner₁ := (@kept_takeId d k id available).owners
  generalize d.takeId k id available = d₁ at hassign hs₁ hid₁ howner₁ ⊢
  have hprepare := move_prepare (A := A) (hassign.inv h) hs₁ hid₁
    (Function.update_self _ _ _) a.chunks
  rw [Function.update_idem] at hprepare
  have hinv := hprepare.inv (hassign.inv h)
  have hs₂ : (d₁.prepare k id a.chunks).heap k =
      some ({ s with count := s.count + 1, source := id }.prepareAtomic a.chunks).1 := by
    rw [prepare, useSource_some hs₁]
    exact Function.update_self _ _ _
  have hid₂ : (d₁.prepare k id a.chunks).pool.playing.lookup k = some id := by
    rw [prepare, useSource_some hs₁]
    exact hid₁
  have hstart := move_start (A := A) hinv hs₂ hid₂ (Function.update_self _ _ _)
  rw [rest_update (rest d).phase k .prepared rfl] at hstart
  have hmoves : Moves A (rest d) (rest ((d₁.prepare k id a.chunks).setValid k true)) :=
    (hassign.moves.tail hprepare).tail hstart
  rw [playAtomic, hs₁]
  dsimp only
  split
  · exact hmoves
  next hstarted =>
    have hinv' := hmoves.inv h
    have hs₃ : ((d₁.prepare k id a.chunks).setValid k true).heap k =
        some { ({ s with count := s.count + 1, source := id }.prepareAtomic a.chunks).1 with
          valid := true } := by
      rw [setValid, useSource_some hs₂]
      exact Function.update_self _ _ _
    have hid₃ : ((d₁.prepare k id a.chunks).setValid k true).pool.playing.lookup k = some id := by
      rw [setValid, useSource_some hs₂]
      exact hid₂
    have hdrained : A → ((d₁.prepare k id a.chunks).setValid k true).Drained k := by
      intro haccount s' hs' hqueue
      cases hs₃.symm.trans hs'
      have htype : s.sourceType = .queue := by
        rw [← hqueue]
        exact (prepareAtomic_type (s := { s with count := s.count + 1, source := id }) _).symm
      have herror : a.error ≠ .noError := by
        intro heq
        refine hstarted ?_
        rw [started, heq, htype]
        rfl
      rw [view_playing hs₃ hid₃]
      rw [setValid, useSource_some hs₂, prepare, useSource_some hs₁]
      change Function.update d₁.queued id _ id = []
      rw [Function.update_self, Source.prepareAtomic]
      simp only [htype]
      exact hfails haccount htype herror
    obtain ⟨hstop, hstopped⟩ := moves_stop hinv' hs₃ hdrained
    have hrest : Moves A (rest d)
        (rest (((d₁.prepare k id a.chunks).setValid k true).stop k)) := hmoves.trans hstop
    obtain ⟨s₄, hs₄⟩ := (hrest.inv h).alive (by
      have hkept := (@kept_prepare d₁ k id a.chunks).trans
        ((kept_setValid (k := k) true).trans (kept_stop (k := k)))
      change 0 < (Device.stop k _).owners k
      rw [hkept.owners, howner₁]
      exact howner)
    rw [setValid_stopped (hrest.inv h) hs₄ hstopped.lookup]
    exact hrest

theorem moves_play (h : Inv (rest d)) (hs : d.heap k = some s) (howner : 0 < d.owners k)
    (a : PlayAnswers)
    (hresumes : d.pool.playing.lookup k ≠ none → resumeFails s a = false)
    (hfails : A → d.pool.playing.lookup k = none → s.sourceType = .queue →
      a.error ≠ .noError → s.streamBuffers = []) :
    Moves A (rest d) (rest (d.play k a).2) := by
  cases hid : d.pool.playing.lookup k with
  | some id =>
    rw [hid] at hresumes
    rw [play, assignSource, hid]
    dsimp only
    rw [if_pos rfl, resumeAtomic, useSource_some hs, hresumes (Option.some_ne_none _),
      if_neg Bool.false_ne_true, setValid_playing h hs (by rw [hid]; exact Option.some_ne_none _)]
    exact .refl
  | none =>
    cases havailable : d.pool.available with
    | nil =>
      rw [play, assignSource, hid, havailable]
      dsimp only
      rw [setValid_stopped h hs hid]
      exact .refl
    | cons id available =>
      exact moves_playAtomic h hs howner hid havailable a fun haccount => hfails haccount hid

/-! ### Seeking -/

/-- The end of `seek`. The source is stopped, and played again if it loops. -/
theorem moves_seekCheck (h : Inv (rest d)) (hs : d.heap k = some s) (howner : 0 < d.owners k)
    (a : SeekAnswers)
    (hdrained : A → s.sourceType = .queue → a.invalidValue = true → d.Drained k)
    (hlooping : A → s.sourceType = .queue → s.looping = false) :
    Moves A (rest d) (rest (d.seekCheck k a)) := by
  rw [seekCheck, useSource_some hs]
  split
  next hcheck =>
    have hdrained' : A → d.Drained k := by
      intro haccount s' hs' hqueue
      cases hs.symm.trans hs'
      refine hdrained haccount hqueue ?_ s hs hqueue
      rw [hqueue] at hcheck
      simpa using hcheck
    obtain ⟨hstop, hstopped⟩ := moves_stop h hs hdrained'
    split
    next hloops =>
      have hinv := hstop.inv h
      have howner' : 0 < (d.stop k).owners k := by
        rw [(kept_stop).owners]
        exact howner
      obtain ⟨s', hs'⟩ := hinv.alive howner'
      refine .trans hstop (moves_play hinv hs' howner' a.again ?_ ?_)
      · intro hid
        exact absurd hstopped.lookup hid
      · intro haccount _ hqueue _
        obtain ⟨s'', hs'', htype⟩ := (kept_stop).type k s' hs'
        cases hs.symm.trans hs''
        exact absurd (hlooping haccount (htype ▸ hqueue)) (by rw [hloops]; decide)
    · exact hstop
  · exact .refl

theorem moves_seek (h : Inv (rest d)) (hs : d.heap k = some s) (howner : 0 < d.owners k)
    (offsetSamples : Int) (a : SeekAnswers)
    (haccounted : A → d.AllAccounted)
    (hdrained : A → s.sourceType = .queue → s.valid = true → a.playing = true →
      a.invalidValue = true → d.Drained k)
    (hkeeps : A → s.sourceType = .queue → s.valid = false →
      ∀ b, s.unusedBuffers.head? = some b → offsetSamples < (b.size / s.frameSize : Nat)) :
    Moves A (rest d) (rest (d.seek k offsetSamples a)) := by
  have hlooping : A → s.sourceType = .queue → s.looping = false := fun haccount =>
    (haccounted haccount k s hs).looping
  rw [seek, useSource_some hs]
  rw [seekType, useSource_some hs]
  cases htype : s.sourceType with
  | static =>
    dsimp only
    split
    · refine moves_seekCheck h hs howner a (fun _ hqueue => ?_) (fun _ hqueue => ?_)
      all_goals exact absurd (htype.symm.trans hqueue) (by decide)
    · exact .refl
  | stream =>
    dsimp only
    have hstop_eq : (if s.valid = true then d.stop k else d) = d.stop k := by
      rw [stop, useSource_some hs]
      split <;> rfl
    rw [hstop_eq]
    obtain ⟨hstop, hstopped⟩ := moves_stop (A := A) h hs fun _ s' hs' hqueue => by
      cases hs.symm.trans hs'
      exact absurd (htype.symm.trans hqueue) (by decide)
    have hkept := kept_stop (d := d) (k := k)
    have hinv := hstop.inv h
    have howner' : 0 < (d.stop k).owners k := by
      rw [hkept.owners]
      exact howner
    obtain ⟨s', hs'⟩ := hinv.alive howner'
    have htype' : s'.sourceType = .stream := by
      obtain ⟨s'', hs'', heq⟩ := hkept.type k s' hs'
      cases hs.symm.trans hs''
      rw [heq, htype]
    split
    next hplaying =>
      have hplay := moves_play (A := A) hinv hs' howner' a.play
        (fun hid => absurd hstopped.lookup hid)
        (fun _ _ hqueue => absurd (htype'.symm.trans hqueue) (by decide))
      have hmoves : Moves A (rest d) (rest ((d.stop k).play k a.play).2) := hstop.trans hplay
      have hkept' := kept_play (d := d.stop k) (k := k) a.play
      have howner'' : 0 < ((d.stop k).play k a.play).2.owners k := by
        rw [hkept'.owners]
        exact howner'
      obtain ⟨s₂, hs₂⟩ := (hmoves.inv h).alive howner''
      have htype₂ : s₂.sourceType = .stream := by
        obtain ⟨s'', hs'', heq⟩ := hkept'.type k s₂ hs₂
        cases hs'.symm.trans hs''
        rw [heq, htype']
      refine .trans hmoves
        (moves_seekCheck (hmoves.inv h) hs₂ howner'' a ?_ ?_)
      all_goals exact fun _ hqueue => absurd (htype₂.symm.trans hqueue) (by decide)
    · exact hstop
  | queue =>
    dsimp only
    cases hvalid : s.valid with
    | true =>
      rw [if_pos rfl]
      split
      next hplaying =>
        exact moves_seekCheck h hs howner a
          (fun haccount _ => hdrained haccount htype hvalid (by simpa using hplaying)) hlooping
      · exact .refl
    | false =>
      refine (move_change h hs (Source.seekQueue_same offsetSamples) ?_).moves
      intro haccount haccounted
      rw [Source.seekQueue_eq (hkeeps haccount htype hvalid)]
      exact haccounted

/-! ### Data and looping -/

theorem moves_queue (h : Inv (rest d)) (hs : d.heap k = some s)
    {length dataSampleRate dataBitDepth dataChannels : Nat} {stored : Bool}
    (hstored : A → s.sourceType = .queue → s.unusedBuffers ≠ [] → length ≠ 0 →
      stored = true ∧ s.bufferedBytes + length < 2147483648) :
    Moves A (rest d)
      (rest (d.queue k length dataSampleRate dataBitDepth dataChannels stored)) := by
  rw [queue, useSource_some hs]
  cases hok : s.queue (d.queued s.source) length dataSampleRate dataBitDepth dataChannels
    stored with
  | error => exact .refl
  | ok r =>
    obtain ⟨b, s', queued'⟩ := r
    obtain ⟨hsame, hqueued⟩ := Source.queue_same hok
    dsimp only
    split
    next hvalid =>
      exact (move_changeQueued h hs hvalid hsame fun haccount haccounted =>
        Source.queue_accounted haccounted (hstored haccount) hok).moves
    next hvalid =>
      have hfalse := Bool.eq_false_of_not_eq_true hvalid
      have hid : d.pool.playing.lookup k = none := by
        by_contra hne
        exact hvalid ((rest_valid h hs).mpr hne)
      refine (move_change h hs hsame fun haccount haccounted => ?_).moves
      change s.Accounted (d.view k).queued at haccounted
      change s'.Accounted (d.view k).queued
      rw [view_stopped hs hid] at haccounted ⊢
      exact Source.queue_accounted haccounted (hstored haccount)
        (Source.queue_invalid_ok hfalse hok)

theorem moves_setLooping (h : Inv (rest d)) (hs : d.heap k = some s) (enable : Bool) :
    Moves A (rest d) (rest (d.setLooping k enable)) := by
  rw [setLooping, useSource_some hs]
  split
  · exact .refl
  next htype =>
    have hmove : Move A (rest d) (rest (d.setSource k { s with looping := enable })) :=
      move_change h hs ⟨rfl, rfl, rfl⟩ fun _ haccounted => ?_
    · exact hmove.moves
    exact ⟨haccounted.all_perm, haccounted.generated_nodup, haccounted.generated_static,
      haccounted.bytes_eq, haccounted.bytes_lt, fun hqueue => absurd hqueue htype⟩

end Sources

/-! ## Lists of sources -/

section Lists

variable {A : Prop} {d : Device} {k : Nat} {s : Source} {l : List Nat}

theorem drained_of_stopped (hid : d.pool.playing.lookup k = none) : d.Drained k := by
  intro s hs _
  rw [view_stopped hs hid]

/-- What is the same about a source is the same about what is queued for it. -/
theorem Device.Drained.of_view {d' : Device} (h : d.Drained k) (hview : d'.view k = d.view k) :
    d'.Drained k := by
  intro s hs hqueue
  rw [hview]
  refine h s ?_ hqueue
  rw [← hs]
  exact (congrArg View.source hview).symm

theorem lookup_of_view {d' : Device} (hview : d'.view k = d.view k) :
    d'.pool.playing.lookup k = d.pool.playing.lookup k := congrArg View.id hview

/-- Sources that can be stopped one after the other: they stay as long as others refer to
them, or they play and none is twice. -/
def Stoppable (l : List Nat) (d : Device) : Prop :=
  (∀ k ∈ l, 0 < d.owners k) ∨ l.Nodup ∧ ∀ k ∈ l, d.pool.playing.lookup k ≠ none

theorem Stoppable.alive (hl : Stoppable (k :: l) d) (h : Inv (rest d)) :
    ∃ s, d.heap k = some s := by
  rcases hl with howners | ⟨-, hplaying⟩
  · exact h.alive (howners k mem_cons_self)
  · obtain ⟨id, hid⟩ := Option.ne_none_iff_exists'.mp (hplaying k mem_cons_self)
    exact h.playing_alive hid

theorem Stoppable.tail {d' : Device} (hl : Stoppable (k :: l) d) (howners : d'.owners = d.owners)
    (hothers : ∀ j ≠ k, d'.view j = d.view j) : Stoppable l d' := by
  rcases hl with howner | ⟨hnodup, hplaying⟩
  · refine .inl fun j hj => ?_
    rw [howners]
    exact howner j (mem_cons_of_mem _ hj)
  · rw [nodup_cons] at hnodup
    refine .inr ⟨hnodup.2, fun j hj => ?_⟩
    have hne : j ≠ k := by
      rintro rfl
      exact hnodup.1 hj
    rw [lookup_of_view (hothers j hne)]
    exact hplaying j (mem_cons_of_mem _ hj)

/-! ### Stopping -/

theorem moves_stopOne (h : Inv (rest d)) (hs : d.heap k = some s)
    (hdrained : A → d.Drained k) :
    ∃ d', (d.useSource k fun s => if s.valid then d.teardownAtomic k s else d).releaseSource k
        false = d' ∧ Moves A (rest d) (rest d') ∧ Stopped k d d' ∧ Kept d d' := by
  refine ⟨_, rfl, ?_⟩
  rw [useSource_some hs]
  split
  next hvalid =>
    obtain ⟨id, hid⟩ := Option.ne_none_iff_exists'.mp ((rest_valid h hs).mp hvalid)
    have hid' : (d.teardownAtomic k s).pool.playing.lookup k = some id := hid
    have hkept := (kept_teardownAtomic hs).trans (kept_releaseSource (k := k) false)
    rw [releaseSource, hid'] at hkept ⊢
    obtain ⟨hmoves, hstopped⟩ := moves_teardown h hs hvalid hid hdrained
    exact ⟨hmoves, hstopped, hkept⟩
  next hvalid =>
    have hid : d.pool.playing.lookup k = none := by
      by_contra hne
      exact hvalid ((rest_valid h hs).mpr hne)
    rw [releaseSource, hid]
    exact ⟨.refl, ⟨fun _ _ => rfl, hid⟩, .refl d⟩

theorem moves_stopList (h : Inv (rest d)) (hl : Stoppable l d)
    (hdrained : A → ∀ k ∈ l, d.Drained k) :
    Moves A (rest d) (rest (d.stopList l)) ∧
      (∀ k ∈ l, (d.stopList l).pool.playing.lookup k = none) ∧
      (∀ j ∉ l, (d.stopList l).view j = d.view j) ∧ Kept d (d.stopList l) := by
  induction l generalizing d with
  | nil =>
    exact ⟨.refl, fun _ hk => absurd hk not_mem_nil, fun _ _ => rfl,
      .refl d⟩
  | cons k l ih =>
    obtain ⟨s, hs⟩ := hl.alive h
    obtain ⟨d', heq, hmoves, hstopped, hkept⟩ := moves_stopOne h hs
      fun haccount => hdrained haccount k mem_cons_self
    rw [stopList, heq]
    obtain ⟨hrest, hnone, hothers, hkept'⟩ := ih (hmoves.inv h)
      (hl.tail hkept.owners hstopped.others) fun haccount j hj => by
        by_cases hjk : j = k
        · subst hjk
          exact drained_of_stopped hstopped.lookup
        · exact (hdrained haccount j (mem_cons_of_mem _ hj)).of_view (hstopped.others j hjk)
    refine ⟨.trans hmoves hrest, ?_, ?_, hkept.trans hkept'⟩
    · intro j hj
      by_cases hjl : j ∈ l
      · exact hnone j hjl
      · have hjk : j = k := (mem_cons.mp hj).resolve_right hjl
        subst hjk
        rw [lookup_of_view (hothers j hjl)]
        exact hstopped.lookup
    · intro j hj
      rw [mem_cons, not_or] at hj
      rw [hothers j hj.2, hstopped.others j hj.1]

/-! ### Updates -/

/-- A queueable source that has ended has nothing queued once all is unqueued. -/
theorem update_drained {queued : List Buffer} {a : UpdateAnswers} (hvalid : s.valid = true)
    (hqueue : s.sourceType = .queue) (hended : (s.update queued a).1 = false)
    (hprocessed : a.stopped = true → queued.length ≤ a.processed) :
    (s.update queued a).2.2 = [] := by
  rw [Source.update, if_pos hvalid] at hended ⊢
  simp only [hqueue] at hended ⊢
  rw [Source.isFinished, hqueue, if_neg (fun hboth => absurd hboth.1 (by decide))] at hended
  rw [Source.updateQueue, drop_of_length_le (hprocessed (by simpa using hended))]

/-- `update` of a source that plays: what becomes of it, and of the others nothing. -/
theorem move_updateSource {id : Nat} (h : Inv (rest d)) (hs : d.heap k = some s)
    (hid : d.pool.playing.lookup k = some id) (a : UpdateAnswers) :
    Move A (rest d) (rest (d.updateSource k s a)) ∧
      (∀ j ≠ k, (d.updateSource k s a).view j = d.view j) ∧
      (d.updateSource k s a).view k =
        ⟨some (s.update (d.queued s.source) a).2.1, some id, d.owners k,
          (s.update (d.queued s.source) a).2.2⟩ ∧
      (d.updateSource k s a).pool = d.pool := by
  have hvalid := (rest_valid h hs).mpr (by rw [hid]; exact Option.some_ne_none _)
  have hsource := rest_source h hs hid
  rw [updateSource, if_pos hvalid]
  refine ⟨?_, ?_, ?_, rfl⟩
  · exact move_changeQueued h hs hvalid (Source.update_same a) fun _ haccounted =>
      Source.update_accounted haccounted a
  · intro j hj
    rw [view_setQueued_ne, view_setSource_ne hj]
    exact fun heq => hj (h.ids.injective heq (hsource ▸ hid))
  · rw [view_setQueued (by rw [hsource]; exact hid), view_setSource, view_playing hs hid]
    rfl

/-- Sources whose buffers are all unqueued before they end. -/
def Unqueues (a : Nat → UpdateAnswers) (l : List Nat) (d : Device) : Prop :=
  ∀ k ∈ l, ∀ s, d.heap k = some s → s.sourceType = .queue → (a k).stopped = true →
    (d.view k).queued.length ≤ (a k).processed

theorem Unqueues.tail {d' : Device} {a : Nat → UpdateAnswers} (h : Unqueues a (k :: l) d)
    (hk : k ∉ l) (hothers : ∀ j ≠ k, d'.view j = d.view j) : Unqueues a l d' := by
  intro j hj s' hs' hqueue hstopped
  have hne : j ≠ k := by
    rintro rfl
    exact hk hj
  rw [hothers j hne]
  refine h j (mem_cons_of_mem _ hj) s' ?_ hqueue hstopped
  rw [← hs']
  exact (congrArg View.source (hothers j hne)).symm

theorem update_type {queued : List Buffer} (a : UpdateAnswers) :
    (s.update queued a).2.1.sourceType = s.sourceType := by
  rw [Source.update]
  split
  · split
    · rfl
    · split <;> rfl
    · rfl
  · rfl

theorem moves_updateSources (h : Inv (rest d)) (a : Nat → UpdateAnswers) (hnodup : l.Nodup)
    (hplaying : ∀ k ∈ l, d.pool.playing.lookup k ≠ none) :
    Moves A (rest d) (rest (updateSources a l d).2) ∧
      (updateSources a l d).2.pool = d.pool ∧
      (∀ j ∉ l, (updateSources a l d).2.view j = d.view j) ∧
      (updateSources a l d).1.Sublist l ∧
      (Unqueues a l d → ∀ k ∈ (updateSources a l d).1, (updateSources a l d).2.Drained k) := by
  induction l generalizing d with
  | nil =>
    exact ⟨.refl, rfl, fun _ _ => rfl, .refl _,
      fun _ k hk => absurd hk not_mem_nil⟩
  | cons k l ih =>
    rw [nodup_cons] at hnodup
    obtain ⟨id, hid⟩ := Option.ne_none_iff_exists'.mp (hplaying k mem_cons_self)
    obtain ⟨s, (hs : d.heap k = some s)⟩ := h.playing_alive hid
    have hvalid := (rest_valid h hs).mpr (hplaying k mem_cons_self)
    obtain ⟨hmove, hothers, hown, hpool⟩ := move_updateSource h hs hid (a k)
    rw [updateSources, hs]
    dsimp only
    generalize hd' : d.updateSource k s (a k) = d' at hmove hothers hown hpool ⊢
    obtain ⟨hmoves, hpool', hothers', hsub, hdrained⟩ := ih (hmove.inv h) hnodup.2
      fun j hj => by
        rw [hpool]
        exact hplaying j (mem_cons_of_mem _ hj)
    have htrans := Relation.ReflTransGen.trans hmove.moves hmoves
    have hview : ∀ j ∉ k :: l, (updateSources a l d').2.view j = d.view j := by
      intro j hj
      rw [mem_cons, not_or] at hj
      rw [hothers' j hj.2, hothers j hj.1]
    split
    next hgoes =>
      exact ⟨htrans, hpool'.trans hpool, hview, hsub.cons k,
        fun hunqueues => hdrained (hunqueues.tail hnodup.1 hothers)⟩
    next hended =>
      refine ⟨htrans, hpool'.trans hpool, hview, hsub.cons_cons k, ?_⟩
      intro hunqueues j hj
      rcases mem_cons.mp hj with rfl | hjl
      · -- the source that has ended is not touched by the updates of the others
        refine .of_view ?_ (hothers' j hnodup.1)
        intro s' hs' hqueue
        have hsource : some s' = some (s.update (d.queued s.source) (a j)).2.1 :=
          hs'.symm.trans (congrArg View.source hown)
        cases hsource
        rw [update_type] at hqueue
        rw [hown]
        refine update_drained hvalid hqueue (Bool.eq_false_of_not_eq_true hended) fun hstopped => ?_
        have hlength := hunqueues j mem_cons_self s hs hqueue hstopped
        rw [view_playing hs hid] at hlength
        rw [rest_source h hs hid]
        exact hlength
      · exact hdrained (hunqueues.tail hnodup.1 hothers) j hjl

theorem moves_releaseSources (h : Inv (rest d)) (hnodup : l.Nodup)
    (hplaying : ∀ k ∈ l, d.pool.playing.lookup k ≠ none)
    (hdrained : A → ∀ k ∈ l, d.Drained k) :
    Moves A (rest d) (rest (releaseSources l d)) := by
  induction l generalizing d with
  | nil => exact .refl
  | cons k l ih =>
    rw [nodup_cons] at hnodup
    obtain ⟨id, hid⟩ := Option.ne_none_iff_exists'.mp (hplaying k mem_cons_self)
    obtain ⟨s, (hs : d.heap k = some s)⟩ := h.playing_alive hid
    obtain ⟨hmoves, hstopped⟩ := moves_releaseSource h hs hid
      fun haccount => hdrained haccount k mem_cons_self
    have hne : ∀ j ∈ l, j ≠ k := by
      rintro j hj rfl
      exact hnodup.1 hj
    refine .trans hmoves (ih (hmoves.inv h) hnodup.2 ?_ ?_)
    · intro j hj
      rw [lookup_of_view (hstopped.others j (hne j hj))]
      exact hplaying j (mem_cons_of_mem _ hj)
    · intro haccount j hj
      exact (hdrained haccount j (mem_cons_of_mem _ hj)).of_view
        (hstopped.others j (hne j hj))

theorem moves_putSources (h : Inv (rest d)) (howners : ∀ k ∈ l, 0 < d.owners k) :
    Moves A (rest d) (rest (d.putSourcesAsSharedTable l)) ∧
      (d.putSourcesAsSharedTable l).pool = d.pool := by
  induction l generalizing d with
  | nil => exact ⟨.refl, rfl⟩
  | cons k l ih =>
    obtain ⟨s, (hs : d.heap k = some s)⟩ := h.alive (howners k mem_cons_self)
    have hmove : Move A (rest d) (rest ((d.retain k).setOwners k (d.owners k + 1))) :=
      move_own h hs
    obtain ⟨hmoves, hpool⟩ := ih (hmove.inv h) fun j hj => by
      have hown : (d.retain k).owners = d.owners := kept_retain.owners
      change 0 < Function.update (d.retain k).owners k (d.owners k + 1) j
      rw [hown]
      by_cases hjk : j = k
      · subst hjk
        rw [Function.update_self]
        exact Nat.succ_pos _
      · rw [Function.update_of_ne hjk]
        exact howners j (mem_cons_of_mem _ hj)
    refine ⟨.trans hmove.moves hmoves, hpool.trans ?_⟩
    rw [retain, useSource_some hs]
    rfl

/-! ### The whole of `update` -/

theorem mem_getPlayingSources : k ∈ d.getPlayingSources ↔ d.pool.playing.lookup k ≠ none := by
  rw [getPlayingSources, mem_insertionSort, ← AList.mem_keys, ← AList.lookup_isSome,
    Option.isSome_iff_ne_none]

theorem getPlayingSources_nodup : d.getPlayingSources.Nodup :=
  (perm_insertionSort _ _).nodup_iff.mpr d.pool.playing.keys_nodup

/-- `update` finds that the device is not connected any more. -/
def Disconnects (connected : Option Bool) (d : Device) : Prop :=
  connected = some false ∧ d.pool.disconnectNotified = false

theorem moves_checkConnected (h : Inv (rest d)) {connected : Option Bool}
    (hd : ¬Disconnects connected d) :
    Moves A (rest d) (rest (d.checkConnected connected)) ∧
      (d.checkConnected connected).view = d.view ∧
      (d.checkConnected connected).getPlayingSources = d.getPlayingSources := by
  cases connected with
  | none => exact ⟨.refl, rfl, rfl⟩
  | some b =>
    cases b with
    | true =>
      have hmove : Move A (rest d)
          (rest (d.setPool { d.pool with disconnectNotified := false })) :=
        move_setPool h rfl rfl rfl
      exact ⟨hmove.moves, rfl, rfl⟩
    | false =>
      have hnotified : d.pool.disconnectNotified = true := by
        by_contra hfalse
        exact hd ⟨rfl, Bool.eq_false_of_not_eq_true hfalse⟩
      dsimp only [checkConnected]
      rw [hnotified, if_pos rfl]
      exact ⟨.refl, rfl, rfl⟩

theorem moves_disconnect (h : Inv (rest d)) {connected : Option Bool}
    (hd : Disconnects connected d)
    (howners : ∀ k ∈ d.getPlayingSources, 0 < d.owners k)
    (hdrained : A → ∀ k ∈ d.getPlayingSources, d.Drained k) :
    Moves A (rest d) (rest (d.checkConnected connected)) ∧
      ∀ k, (d.checkConnected connected).pool.playing.lookup k = none := by
  obtain ⟨rfl, hnotified⟩ := hd
  obtain ⟨hstop, hnone, hothers, hkept⟩ :=
    moves_stopList h (.inl howners) hdrained
  obtain ⟨hput, hpool⟩ := moves_putSources (hstop.inv h)
    fun k hk => by
      rw [hkept.owners]
      exact howners k hk
  have hmoves : Moves A (rest d)
      (rest ((d.stopList d.getPlayingSources).putSourcesAsSharedTable d.getPlayingSources)) :=
    .trans hstop hput
  dsimp only [checkConnected]
  rw [hnotified, if_neg Bool.false_ne_true]
  refine ⟨hmoves.tail (move_setPool (hmoves.inv h) rfl rfl rfl), ?_⟩
  intro k
  change (Device.putSourcesAsSharedTable _ _).pool.playing.lookup k = none
  rw [hpool]
  by_cases hk : k ∈ d.getPlayingSources
  · exact hnone k hk
  · rw [lookup_of_view (hothers k hk)]
    by_contra hid
    exact hk (mem_getPlayingSources.mpr hid)

/-- `update`, when each source that plays is referred to by others, or the device is not
found to be disconnected. -/
theorem moves_update (h : Inv (rest d)) (connected : Option Bool) (a : Nat → UpdateAnswers)
    (howners : Disconnects connected d → ∀ k ∈ d.getPlayingSources, 0 < d.owners k)
    (hdrained : A → Disconnects connected d → ∀ k ∈ d.getPlayingSources, d.Drained k)
    (hunqueues : A → ¬Disconnects connected d → Unqueues a d.getPlayingSources d) :
    Moves A (rest d) (rest (d.update connected a)) := by
  rw [Device.update]
  have hconnected : Moves A (rest d) (rest (d.checkConnected connected)) ∧
      (A → Unqueues a (d.checkConnected connected).getPlayingSources
        (d.checkConnected connected)) := by
    by_cases hd : Disconnects connected d
    · obtain ⟨hmoves, hnone⟩ := moves_disconnect h hd (howners hd)
        fun haccount => hdrained haccount hd
      exact ⟨hmoves, fun _ k hk => absurd (hnone k) (mem_getPlayingSources.mp hk)⟩
    · obtain ⟨hmoves, hview, hplaying⟩ := moves_checkConnected h hd
      refine ⟨hmoves, fun haccount k hk s hs hqueue hstopped => ?_⟩
      rw [hview]
      rw [hplaying] at hk
      refine hunqueues haccount hd k hk s ?_ hqueue hstopped
      rw [← hs]
      exact (congrArg View.source (congrFun hview k)).symm
  obtain ⟨hmoves, hunqueues'⟩ := hconnected
  generalize d.checkConnected connected = d' at hmoves hunqueues' ⊢
  obtain ⟨hupdate, hpool, -, hsub, hended⟩ := moves_updateSources
    (hmoves.inv h) a getPlayingSources_nodup fun k hk => mem_getPlayingSources.mp hk
  have hboth : Moves A (rest d) (rest (updateSources a d'.getPlayingSources d').2) :=
    .trans hmoves hupdate
  refine .trans hboth (moves_releaseSources (hboth.inv h)
    (hsub.nodup getPlayingSources_nodup) ?_ fun haccount => hended (hunqueues' haccount))
  intro k hk
  rw [hpool]
  exact mem_getPlayingSources.mp (hsub.subset hk)

/-! ### Playing -/

/-- The sources of a list that were not playing. -/
def newKeys (assigned : List (Nat × Nat × Bool)) : List Nat :=
  (assigned.filter fun e => !e.2.2).map Prod.fst

variable {assigned : List (Nat × Nat × Bool)}

@[simp] theorem newKeys_false {out : Nat} :
    newKeys ((k, out, false) :: assigned) = k :: newKeys assigned := rfl

theorem newKeys_subset (hk : k ∈ newKeys assigned) : k ∈ assigned.map Prod.fst := by
  obtain ⟨e, he, rfl⟩ := mem_map.mp hk
  exact mem_map_of_mem (mem_of_mem_filter he)

/-- The phases after all of some sources came to one. -/
def mark (f : Nat → Phase) (l : List Nat) (φ : Phase) : Nat → Phase :=
  fun j => if j ∈ l then φ else f j

theorem mark_update (f : Nat → Phase) (k : Nat) (l : List Nat) (φ : Phase) :
    mark (Function.update f k φ) l φ = mark f (k :: l) φ := by
  funext j
  by_cases hk : j = k
  · subst hk
    simp [mark]
  · simp [mark, hk]

/-- What the first loop of `play` has done. -/
structure Assigned (l : List Nat) (d : Device) (r : List (Nat × Nat × Bool) × Bool × Device) :
    Prop where
  nodup : (newKeys r.1).Nodup
  fresh : ∀ k ∈ newKeys r.1, d.pool.playing.lookup k = none
  ids : ∀ e ∈ r.1, r.2.2.pool.playing.lookup e.1 = some e.2.1
  others : ∀ k ∉ newKeys r.1, r.2.2.pool.playing.lookup k = d.pool.playing.lookup k
  all : r.2.1 = true → r.1.map Prod.fst = l
  kept : Kept d r.2.2

variable {p : Point}

theorem moves_assignSources (h : Inv p) (hl : ∀ k ∈ l, 0 < p.device.owners k) :
    Moves A p
        ⟨mark p.phase (newKeys (assignSources l p.device).1) .assigned,
          (assignSources l p.device).2.2⟩ ∧
      Assigned l p.device (assignSources l p.device) := by
  induction l generalizing p with
  | nil =>
    refine ⟨.refl, nodup_nil, ?_, ?_, fun _ _ => rfl, fun _ => rfl,
      .refl _⟩
    · intro k hk
      cases hk
    · intro e he
      cases he
  | cons k l ih =>
    obtain ⟨s, hs⟩ := h.alive (hl k mem_cons_self)
    have hl' : ∀ j ∈ l, 0 < p.device.owners j := fun j hj => hl j (mem_cons_of_mem _ hj)
    cases hid : p.device.pool.playing.lookup k with
    | some out =>
      obtain ⟨hmoves, hassigned⟩ := ih h hl'
      have hk : k ∉ newKeys (assignSources l p.device).1 := by
        intro hk
        rw [hassigned.fresh k hk] at hid
        cases hid
      rw [assignSources, assignSource, hid]
      refine ⟨hmoves, hassigned.nodup, hassigned.fresh, ?_, hassigned.others, ?_, hassigned.kept⟩
      · intro e he
        rcases mem_cons.mp he with rfl | he
        · exact (hassigned.others k hk).trans hid
        · exact hassigned.ids e he
      · intro hall
        rw [map_cons, hassigned.all hall]
    | none =>
      cases havailable : p.device.pool.available with
      | nil =>
        rw [assignSources, assignSource, hid, havailable]
        refine ⟨.refl, nodup_nil, ?_, ?_, fun _ _ => rfl, ?_, .refl _⟩
        · intro k hk
          cases hk
        · intro e he
          cases he
        · intro hfalse
          cases hfalse
      | cons out available =>
        have hmove := move_takeId (A := A) h hs hid havailable
        have hkept := @kept_takeId p.device k out available
        have hid' : (p.device.takeId k out available).pool.playing.lookup k = some out := by
          rw [takeId_eq hs]
          exact AList.lookup_insert _
        have hother : ∀ j ≠ k, (p.device.takeId k out available).pool.playing.lookup j =
            p.device.pool.playing.lookup j := by
          intro j hj
          rw [takeId_eq hs]
          exact AList.lookup_insert_ne hj
        rw [assignSources, assignSource_fresh hid havailable]
        generalize p.device.takeId k out available = d' at hmove hkept hid' hother ⊢
        obtain ⟨hmoves, hassigned⟩ := ih (hmove.inv h) fun j hj => by
          rw [hkept.owners]
          exact hl' j hj
        rw [mark_update] at hmoves
        have hk : k ∉ newKeys (assignSources l d').1 := by
          intro hk
          rw [hassigned.fresh k hk] at hid'
          cases hid'
        refine ⟨.trans hmove.moves hmoves, ?_, ?_, ?_, ?_, ?_,
          hkept.trans hassigned.kept⟩
        · exact nodup_cons.mpr ⟨hk, hassigned.nodup⟩
        · intro j hj
          rcases mem_cons.mp hj with rfl | hj'
          · exact hid
          · have hne : j ≠ k := fun heq => hk (heq ▸ hj')
            rw [← hother j hne]
            exact hassigned.fresh j hj'
        · intro e he
          rcases mem_cons.mp he with rfl | he
          · exact (hassigned.others k hk).trans hid'
          · exact hassigned.ids e he
        · intro j hj
          rw [newKeys_false, mem_cons, not_or] at hj
          rw [hassigned.others j hj.2, hother j hj.1]
        · intro hall
          rw [map_cons, hassigned.all hall]

theorem mem_newKeys {e : Nat × Nat × Bool} (he : e ∈ assigned)
    (hnew : e.2.2 = false) : e.1 ∈ newKeys assigned :=
  mem_map_of_mem (mem_filter.mpr ⟨he, by rw [hnew]; rfl⟩)

theorem Inv.assigned_invalid (h : Inv p) (hs : p.device.heap k = some s)
    (hphase : p.phase k = .assigned) : s.valid = false := by
  refine Bool.eq_false_of_not_eq_true fun htrue => ?_
  have hidle := (((h.key k).valid s hs).mp htrue).2
  rw [hphase] at hidle
  cases hidle

theorem moves_releaseAssigned (h : Inv p) (hnodup : (newKeys assigned).Nodup)
    (hphase : ∀ k ∈ newKeys assigned, p.phase k = .assigned)
    (hids : ∀ e ∈ assigned, e.2.2 = false → p.device.pool.playing.lookup e.1 = some e.2.1) :
    Moves A p
        ⟨mark p.phase (newKeys assigned) .idle, p.device.releaseAssigned assigned⟩ ∧
      (∀ k ∈ newKeys assigned,
        (p.device.releaseAssigned assigned).pool.playing.lookup k = none) ∧
      (∀ k ∉ newKeys assigned, (p.device.releaseAssigned assigned).pool.playing.lookup k =
        p.device.pool.playing.lookup k) := by
  induction assigned generalizing p with
  | nil =>
    exact ⟨.refl, fun k hk => absurd hk not_mem_nil, fun _ _ => rfl⟩
  | cons e assigned ih =>
    obtain ⟨k, out, wasPlaying⟩ := e
    have hids' : ∀ e ∈ assigned, e.2.2 = false →
        p.device.pool.playing.lookup e.1 = some e.2.1 :=
      fun e he => hids e (mem_cons_of_mem _ he)
    cases wasPlaying with
    | true =>
      exact ih h hnodup hphase hids'
    | false =>
      rw [newKeys_false, nodup_cons] at hnodup
      have hid : p.device.pool.playing.lookup k = some out := hids _ mem_cons_self rfl
      obtain ⟨s, hs⟩ := h.playing_alive hid
      have hassigned := hphase k mem_cons_self
      have hmove := move_giveBack (A := A) h hs hid hassigned
      have hother : ∀ j ≠ k, (((p.device.release k).giveBack k out).view j) = p.device.view j :=
        fun j hj => view_giveBack_ne hs (h.assigned_invalid hs hassigned) hj
      have hnone : ((p.device.release k).giveBack k out).pool.playing.lookup k = none := by
        simp [giveBack, setPool]
      rw [releaseAssigned, if_neg Bool.false_ne_true, releaseSource, hid]
      dsimp only
      rw [if_neg Bool.false_ne_true]
      generalize (p.device.release k).giveBack k out = d' at hmove hother hnone ⊢
      have hne : ∀ j ∈ newKeys assigned, j ≠ k := fun j hj heq => hnodup.1 (heq ▸ hj)
      obtain ⟨hmoves, hgone, hothers⟩ := ih (hmove.inv h) hnodup.2
        (fun j hj => (Function.update_of_ne (hne j hj) _ _).trans
          (hphase j (mem_cons_of_mem _ hj)))
        (fun e he hnew => (lookup_of_view (hother e.1 (hne e.1 (mem_newKeys he hnew)))).trans
          (hids' e he hnew))
      dsimp only at hmoves hgone hothers
      rw [mark_update] at hmoves
      refine ⟨.trans hmove.moves hmoves, ?_, ?_⟩
      · intro j hj
        rcases mem_cons.mp hj with rfl | hj'
        · exact (hothers j hnodup.1).trans hnone
        · exact hgone j hj'
      · intro j hj
        rw [newKeys_false, mem_cons, not_or] at hj
        exact (hothers j hj.2).trans (lookup_of_view (hother j hj.1))

theorem moves_prepareAssigned (h : Inv p) (chunks : Nat → List Chunk)
    (hnodup : (newKeys assigned).Nodup) (hphase : ∀ k ∈ newKeys assigned, p.phase k = .assigned)
    (hids : ∀ e ∈ assigned, p.device.pool.playing.lookup e.1 = some e.2.1) :
    Moves A p
        ⟨mark p.phase (newKeys assigned) .prepared, p.device.prepareAssigned chunks assigned⟩ ∧
      (p.device.prepareAssigned chunks assigned).pool = p.device.pool := by
  induction assigned generalizing p with
  | nil => exact ⟨.refl, rfl⟩
  | cons e assigned ih =>
    obtain ⟨k, out, wasPlaying⟩ := e
    have hids' : ∀ e ∈ assigned, p.device.pool.playing.lookup e.1 = some e.2.1 :=
      fun e he => hids e (mem_cons_of_mem _ he)
    cases wasPlaying with
    | true =>
      exact ih h hnodup hphase hids'
    | false =>
      rw [newKeys_false, nodup_cons] at hnodup
      have hid : p.device.pool.playing.lookup k = some out := hids _ mem_cons_self
      obtain ⟨s, hs⟩ := h.playing_alive hid
      have hmove := move_prepare (A := A) h hs hid (hphase k mem_cons_self)
        (chunks k)
      have hpool : (p.device.prepare k out (chunks k)).pool = p.device.pool := by
        rw [prepare, useSource_some hs]
        rfl
      rw [prepareAssigned, if_neg Bool.false_ne_true]
      generalize p.device.prepare k out (chunks k) = d' at hmove hpool ⊢
      have hne : ∀ j ∈ newKeys assigned, j ≠ k := fun j hj heq => hnodup.1 (heq ▸ hj)
      obtain ⟨hmoves, hpool'⟩ := ih (hmove.inv h) hnodup.2
        (fun j hj => (Function.update_of_ne (hne j hj) _ _).trans
          (hphase j (mem_cons_of_mem _ hj)))
        (fun e he => by
          rw [hpool]
          exact hids' e he)
      rw [mark_update] at hmoves
      exact ⟨.trans hmove.moves hmoves, hpool'.trans hpool⟩

theorem moves_validate (h : Inv p) (hphase : ∀ k ∈ l, p.phase k = .prepared ∨ p.phase k = .idle)
    (hplaying : ∀ k ∈ l, p.device.pool.playing.lookup k ≠ none) :
    Moves A p ⟨mark p.phase l .idle, p.device.validate true l⟩ := by
  induction l generalizing p with
  | nil => exact .refl
  | cons k l ih =>
    obtain ⟨id, hid⟩ := Option.ne_none_iff_exists'.mp (hplaying k mem_cons_self)
    obtain ⟨s, hs⟩ := h.playing_alive hid
    have hmove : Moves A p ⟨Function.update p.phase k .idle, p.device.setValid k true⟩ := by
      rcases hphase k mem_cons_self with hprepared | hidle
      · exact (move_start h hs hid hprepared).moves
      · have hvalid : s.valid = true :=
          ((h.key k).valid s hs).mpr ⟨by rw [view_playing hs hid]; exact Option.some_ne_none _, hidle⟩
        rw [← hvalid, setValid_self hs, ← hidle, Function.update_eq_self]
        exact .refl
    have hpool : (p.device.setValid k true).pool = p.device.pool := by
      rw [setValid, useSource_some hs]
      rfl
    have heq : (p.device.useSource k fun s => p.device.setSource k
        { s with valid := s.valid || true }) = p.device.setValid k true := by
      simp only [Bool.or_true, setValid]
    rw [validate, heq]
    have hmoves := ih (hmove.inv h)
      (fun j hj => by
        by_cases hjk : j = k
        · subst hjk
          exact .inr (Function.update_self _ _ _)
        · dsimp only
          rw [Function.update_of_ne hjk]
          exact hphase j (mem_cons_of_mem _ hj))
      (fun j hj => by
        rw [hpool]
        exact hplaying j (mem_cons_of_mem _ hj))
    rw [mark_update] at hmoves
    exact .trans hmove hmoves

/-- `play` of a list that gets no id for one of its sources: what plays is as before. -/
theorem playList_fails (h : Inv (rest d)) (hl : ∀ k ∈ l, 0 < d.owners k) (hne : l ≠ [])
    (hfails : (assignSources l d).2.1 = false) (chunks : Nat → List Chunk) (success : Bool) :
    (d.playList l chunks success).1 = false ∧
      Moves A (rest d) (rest (d.playList l chunks success).2) ∧
      ∀ k, (d.playList l chunks success).2.pool.playing.lookup k = d.pool.playing.lookup k := by
  obtain ⟨hmoves, hassigned⟩ := moves_assignSources (A := A) h hl
  dsimp only [rest] at hmoves hassigned
  rw [playList, if_neg hne]
  generalize assignSources l d = r at hmoves hassigned hfails ⊢
  obtain ⟨assigned, all, d'⟩ := r
  obtain rfl : all = false := hfails
  obtain ⟨hrelease, hgone, hothers⟩ := moves_releaseAssigned (hmoves.inv h)
    hassigned.nodup (fun k hk => if_pos hk) (fun e he _ => hassigned.ids e he)
  have hphase : mark (mark (fun _ => .idle) (newKeys assigned) .assigned) (newKeys assigned)
      .idle = fun _ => .idle := by
    funext k
    by_cases hk : k ∈ newKeys assigned
    all_goals simp [mark, hk]
  rw [hphase] at hrelease
  refine ⟨rfl, .trans hmoves hrelease, ?_⟩
  intro k
  by_cases hk : k ∈ newKeys assigned
  · rw [hgone k hk, hassigned.fresh k hk]
  · rw [hothers k hk, hassigned.others k hk]

theorem moves_playList (h : Inv (rest d)) (hl : ∀ k ∈ l, 0 < d.owners k)
    (chunks : Nat → List Chunk) :
    Moves A (rest d) (rest (d.playList l chunks true).2) := by
  by_cases hne : l = []
  · rw [playList, if_pos hne]
    exact .refl
  by_cases hfails : (assignSources l d).2.1 = false
  · exact (playList_fails h hl hne hfails chunks true).2.1
  obtain ⟨hmoves, hassigned⟩ := moves_assignSources (A := A) h hl
  dsimp only [rest] at hmoves hassigned
  rw [playList, if_neg hne]
  generalize assignSources l d = r at hmoves hassigned hfails ⊢
  obtain ⟨assigned, all, d'⟩ := r
  obtain rfl : all = true := (Bool.not_eq_false _).mp hfails
  obtain ⟨hprepare, hpool⟩ := moves_prepareAssigned (hmoves.inv h) chunks
    hassigned.nodup (fun k hk => if_pos hk) hassigned.ids
  have hboth := Relation.ReflTransGen.trans hmoves hprepare
  have hall : assigned.map Prod.fst = l := hassigned.all rfl
  have hvalidate := moves_validate (A := A) (l := l)
    (Moves.inv hboth h)
    (fun k _ => by
      by_cases hk : k ∈ newKeys assigned
      · simp [mark, hk]
      · simp [mark, hk])
    (fun k hk => by
      rw [← hall] at hk
      obtain ⟨e, he, rfl⟩ := mem_map.mp hk
      rw [hpool, hassigned.ids e he]
      exact Option.some_ne_none _)
  have hphase : mark (mark (mark (fun _ => .idle) (newKeys assigned) .assigned)
      (newKeys assigned) .prepared) l .idle = fun _ => .idle := by
    funext k
    by_cases hk : k ∈ l
    · simp [mark, hk]
    · have hnew : k ∉ newKeys assigned := fun hnew => hk (hall ▸ newKeys_subset hnew)
      simp [mark, hk, hnew]
  rw [hphase] at hvalidate
  exact .trans hboth hvalidate

end Lists

/-! ## Steps -/

/-- What OpenAL does not refuse: a source that is played again while it plays can be
resumed, and the sources of a list are played when they all have ids. When the device is
found to be disconnected, others refer to each source that plays. -/
def Suitable (d : Device) : PoolOp → Prop
  | .play k a => ∀ s, d.heap k = some s → d.pool.playing.lookup k ≠ none → resumeFails s a = false
  | .playList _ _ success => success = true
  | .update connected _ =>
    Disconnects connected d → ∀ k ∈ d.getPlayingSources, 0 < d.owners k
  | _ => True

/-- The calls that keep account of buffers: a queueable source is torn down when nothing is
queued for it, `seek` discards none of its buffers, and OpenAL takes its data, less than
2 GiB in all. -/
def Accounts (d : Device) : PoolOp → Prop
  | .queue k length _ _ _ stored =>
    ∀ s, d.heap k = some s → s.sourceType = .queue → s.unusedBuffers ≠ [] → length ≠ 0 →
      stored = true ∧ s.bufferedBytes + length < 2147483648
  | .seek k offsetSamples a =>
    ∀ s, d.heap k = some s → s.sourceType = .queue →
      (s.valid = true → a.playing = true → a.invalidValue = true → d.Drained k) ∧
      (s.valid = false → ∀ b, s.unusedBuffers.head? = some b →
        offsetSamples < (b.size / s.frameSize : Nat))
  | .play k a =>
    ∀ s, d.heap k = some s → d.pool.playing.lookup k = none → s.sourceType = .queue →
      a.error ≠ .noError → s.streamBuffers = []
  | .stop k => d.Drained k
  | .stopList l => ∀ k ∈ l, d.Drained k
  | .stopAll => ∀ k ∈ d.getPlayingSources, d.Drained k
  | .update connected a =>
    (Disconnects connected d → ∀ k ∈ d.getPlayingSources, d.Drained k) ∧
      (¬Disconnects connected d → Unqueues a d.getPlayingSources d)
  | _ => True

section Steps

variable {A : Prop} {d d' : Device} {op : PoolOp}

/-- **A call is a series of moves.** -/
theorem step_moves (h : Inv (rest d)) (hsuitable : Suitable d op)
    (haccounted : A → d.AllAccounted) (haccounts : A → Accounts d op)
    (hstep : d.Step op d') : Moves A (rest d) (rest d') := by
  cases hstep with
  | newStatic k sampleRate channels bitDepth hnone =>
    exact (move_add h hnone rfl rfl fun _ =>
      Source.init_accounted nodup_nil (fun _ => rfl) (fun _ => rfl)).moves
  | newStream k sampleRate channels bitDepth generated hnone hfresh =>
    exact (move_add h hnone rfl rfl fun _ =>
      Source.init_accounted ((take_sublist _ _).nodup hfresh.1)
        (fun heq => by cases heq) (fun _ => rfl)).moves
  | newQueue k sampleRate bitDepth channels b generated hnone hfresh =>
    exact (move_add h hnone rfl rfl fun _ =>
      Source.init_accounted ((take_sublist _ _).nodup hfresh.1)
        (fun heq => by cases heq) (fun _ => rfl)).moves
  | clone k k' generated s howner hs hnone hfresh =>
    refine (move_add h hnone rfl rfl fun haccount => Source.init_accounted ?_ ?_ ?_).moves
    · split
      · exact nodup_nil
      · exact (take_sublist _ _).nodup hfresh.1
    · intro hstatic
      rw [if_pos hstatic]
    · exact (haccounted haccount k s hs).looping
  | retain k howner =>
    obtain ⟨s, hs⟩ := h.alive howner
    exact (move_own h hs).moves
  | release k howner =>
    obtain ⟨s, hs⟩ := h.alive howner
    exact (move_disown h hs howner).moves
  | setLooping k enable howner =>
    obtain ⟨s, hs⟩ := h.alive howner
    exact moves_setLooping h hs enable
  | queue k length dataSampleRate dataBitDepth dataChannels stored howner =>
    obtain ⟨s, hs⟩ := h.alive howner
    exact moves_queue h hs fun haccount => haccounts haccount s hs
  | seek k offsetSamples a howner =>
    obtain ⟨s, hs⟩ := h.alive howner
    exact moves_seek h hs howner offsetSamples a haccounted
      (fun haccount hqueue => (haccounts haccount s hs hqueue).1)
      (fun haccount hqueue => (haccounts haccount s hs hqueue).2)
  | play k a howner =>
    obtain ⟨s, hs⟩ := h.alive howner
    exact moves_play h hs howner a (hsuitable s hs) fun haccount => haccounts haccount s hs
  | pause => exact .refl
  | stop k howner =>
    obtain ⟨s, hs⟩ := h.alive howner
    exact (moves_stop h hs haccounts).1
  | playList l chunks success howners =>
    obtain rfl : success = true := hsuitable
    exact moves_playList h howners chunks
  | pauseList => exact .refl
  | stopList l howners => exact (moves_stopList h (.inl howners) haccounts).1
  | pauseAll => exact .refl
  | stopAll =>
    exact (moves_stopList h (.inr ⟨getPlayingSources_nodup,
      fun k hk => mem_getPlayingSources.mp hk⟩) haccounts).1
  | update connected a =>
    exact moves_update h connected a hsuitable (fun haccount => (haccounts haccount).1)
      (fun haccount => (haccounts haccount).2)

theorem initial_inv (h : d.Initial) : Inv (rest d) := by
  obtain ⟨-, hnodup, havailable, hplaying, -, hheap, hqueued, howners, hmisused⟩ := h
  have hlookup : ∀ k, d.pool.playing.lookup k = none := by
    intro k
    rw [hplaying]
    rfl
  refine ⟨⟨?_, hnodup⟩, fun id _ => hqueued id, hmisused, ?_⟩
  · change (d.pool.available ++ held (fun id : Nat => id) d.pool.playing).Perm d.pool.sources
    rw [havailable, hplaying]
    change (d.pool.sources ++ []).Perm d.pool.sources
    rw [append_nil]
  · intro k
    have hview : d.view k = ⟨none, none, 0, []⟩ := by
      simp [view, hheap k, hlookup k, howners k]
    change KeyInv .idle (d.view k)
    rw [hview]
    exact ⟨fun _ => ⟨rfl, rfl⟩, by simp, by simp, by simp, by simp, fun _ => rfl⟩

theorem reachable_inv (h : (pool.restrict Suitable).Reachable d) : Inv (rest d) := by
  refine System.Reachable.invariant_restrict (I := fun d => Inv (rest d))
    (fun d hinit => initial_inv hinit) ?_ h
  intro d op d' hd hsuitable hstep
  exact (step_moves hd hsuitable False.elim False.elim hstep).inv hd

end Steps

/-! ## The pool -/

/-- **The pool**: its ids are available or assigned to sources, each once; it has one
reference to each source that plays, and these are the valid ones; it has not used a source
that is no more. -/
structure Consistent (d : Device) : Prop where
  ids : (d.pool.available ++ d.pool.playing.entries.map fun e => e.2).Perm d.pool.sources
  ids_nodup : d.pool.sources.Nodup
  count : ∀ k s, d.heap k = some s →
    s.count = d.owners k + (if d.pool.playing.lookup k = none then 0 else 1)
  playing : ∀ k, d.pool.playing.lookup k ≠ none → ∃ s, d.heap k = some s
  valid : ∀ k s, d.heap k = some s → (s.valid = true ↔ d.pool.playing.lookup k ≠ none)
  used : d.misused = false

/-- What a failed `play` of a list leaves: those of its sources that were not playing are
stopped and all others play on with their ids; all ids that were available are again. -/
structure Unplayed (l : List Nat) (d d' : Device) : Prop where
  stopped : ∀ k ∈ l, d.pool.playing.lookup k = none →
    d'.pool.playing.lookup k = none ∧ ∃ s, d'.heap k = some s ∧ s.valid = false
  others : ∀ k, d'.pool.playing.lookup k = d.pool.playing.lookup k
  available : d'.pool.available.Perm d.pool.available

theorem Inv.consistent {d : Device} (h : Inv (rest d)) : Consistent d where
  ids := h.ids.perm
  ids_nodup := h.ids.nodup
  count k s hs := ((h.key k).count s hs).1
  playing k hk := by
    obtain ⟨id, hid⟩ := Option.ne_none_iff_exists'.mp hk
    exact h.playing_alive hid
  valid _ _ hs := rest_valid h hs
  used := h.used

theorem kept_releaseAssigned {assigned : List (Nat × Nat × Bool)} {d : Device} :
    Kept d (d.releaseAssigned assigned) := by
  induction assigned generalizing d with
  | nil => exact .refl d
  | cons e assigned ih =>
    rw [releaseAssigned]
    split
    · exact ih
    · exact (kept_releaseSource false).trans ih

theorem assigned_perm {p p' : Pool} (h : ∀ k, p'.playing.lookup k = p.playing.lookup k) :
    p'.assigned.Perm p.assigned := by
  refine .map _ (lookup_ext p'.playing.nodupKeys p.playing.nodupKeys ?_)
  intro k id
  change id ∈ p'.playing.lookup k ↔ id ∈ p.playing.lookup k
  rw [h k]

theorem playList_unplayed {d d' : Device} {l : List Nat} {chunks : Nat → List Chunk}
    (h : Inv (rest d)) (hl : ∀ k ∈ l, 0 < d.owners k)
    (hplay : d.playList l chunks true = (false, d')) : Unplayed l d d' := by
  have hne : l ≠ [] := by
    rintro rfl
    cases hplay
  have hfails : (assignSources l d).2.1 = false := by
    rw [playList, if_neg hne] at hplay
    split at hplay
    next assigned d₁ heq => rw [heq]
    next assigned d₁ heq => cases hplay
  have hkept : Kept d d' := by
    obtain ⟨-, hassigned⟩ := moves_assignSources (A := False) h hl
    rw [playList, if_neg hne] at hplay
    dsimp only [rest] at hassigned
    split at hplay
    next assigned d₁ heq =>
      cases hplay
      rw [heq] at hassigned
      exact hassigned.kept.trans kept_releaseAssigned
    next assigned d₁ heq => cases hplay
  obtain ⟨-, hmoves, hlookup⟩ :=
    playList_fails (A := False) h hl hne hfails chunks true
  rw [hplay] at hmoves hlookup
  have hinv := hmoves.inv h
  refine ⟨?_, hlookup, ?_⟩
  · intro k hk hid
    have hid' : d'.pool.playing.lookup k = none := (hlookup k).trans hid
    obtain ⟨s, (hs : d'.heap k = some s)⟩ := hinv.alive (by
      change 0 < d'.owners k
      rw [hkept.owners]
      exact hl k hk)
    exact ⟨hid', s, hs, Bool.eq_false_of_not_eq_true fun htrue => (rest_valid hinv hs).mp htrue hid'⟩
  · have hperm : (d'.pool.available ++ d'.pool.assigned).Perm
        (d.pool.available ++ d.pool.assigned) := by
      refine hinv.ids.perm.trans (.trans ?_ h.ids.perm.symm)
      have hsources := hmoves.sources
      rw [hsources]
    have hassigned := @assigned_perm d.pool d'.pool hlookup
    exact (perm_append_right_iff d.pool.assigned).mp
      ((hassigned.symm.append_left _).trans hperm)

/-- **The pool is consistent** in every run of suitable calls, and a failed `play` of a list
changes nothing of what plays. -/
theorem pool_consistent {d : Device} (h : (pool.restrict Suitable).Reachable d) :
    Consistent d ∧ ∀ l chunks success d', (∀ k ∈ l, 0 < d.owners k) →
      Suitable d (.playList l chunks success) → d.playList l chunks success = (false, d') →
        Unplayed l d d' := by
  refine ⟨(reachable_inv h).consistent, ?_⟩
  intro l chunks success d' hl hsuitable hplay
  obtain rfl : success = true := hsuitable
  exact playList_unplayed (reachable_inv h) hl hplay

/-- A pool with four ids. -/
def fourIds : Device where
  pool := ⟨[1, 2, 3, 4], [1, 2, 3, 4], ∅, false⟩
  heap _ := none
  queued _ := []
  owners _ := 0
  misused := false

theorem fourIds_initial : fourIds.Initial :=
  ⟨by decide, by decide, rfl, rfl, rfl, fun _ => rfl, fun _ => rfl, fun _ => rfl, rfl⟩

/-- Two static sources, of which one plays. -/
theorem pool_consistent_two :
    ∃ d : Device, (pool.restrict Suitable).Reachable d ∧ d.pool.playing.lookup 7 = some 1 ∧
      Consistent d := by
  have init : (pool.restrict Suitable).Reachable fourIds := .init fourIds_initial
  have first := init.restrict_step (.newStatic 7 44100 2 16) trivial (.newStatic _ _ _ _ rfl)
  have second := first.restrict_step (.newStatic 8 44100 1 8) trivial (.newStatic _ _ _ _ rfl)
  have plays := second.restrict_step (.play 7 ⟨[], .noError, true⟩)
    (fun _ _ hid => absurd rfl hid) (.play _ _ Nat.one_pos)
  exact ⟨_, plays, rfl, (pool_consistent plays).1⟩

/-- **A list that does not play may leave a source of it playing**: all four ids are
assigned, and the list has one of the four sources that play and a fifth. -/
theorem not_always_stopped :
    ¬ ∀ d : Device, pool.Reachable d → Consistent d ∧
      ∀ l chunks success d', (∀ k ∈ l, 0 < d.owners k) →
        d.playList l chunks success = (false, d') → ∀ k ∈ l, d'.pool.playing.lookup k = none := by
  intro h
  have init : pool.Reachable fourIds := .init fourIds_initial
  have h₀ := init.step (.newStatic 0 44100 2 16 rfl)
  have h₁ := h₀.step (.newStatic 1 44100 2 16 rfl)
  have h₂ := h₁.step (.newStatic 2 44100 2 16 rfl)
  have h₃ := h₂.step (.newStatic 3 44100 2 16 rfl)
  have h₄ := h₃.step (.newStatic 4 44100 2 16 rfl)
  have hplays := h₄.step (.playList [0, 1, 2, 3] (fun _ => []) true (by decide))
  have hstopped := (h _ hplays).2 [0, 4] (fun _ => []) true _ (by decide) rfl 0
    mem_cons_self
  cases hstopped

end Lhatove.Audio
