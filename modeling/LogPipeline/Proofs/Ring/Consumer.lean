/-
The consumer's side of a ring: what `tryNext`, `release` and `drain` do
to a ring that its record tracks.

`tryNext` moves over dropped sequences (`Passed`), which changes nothing
of the events below the cursor, and then stands either in front of the
first sequence that is not resolved (`tryNext_none`) or on a published
one, which it lends out (`tryNext_some`). `drainFor` repeats this, so it
ends at the reach of the record (`drainFor_events`), and what it hands
out is what was published between.
-/
import LogPipeline.Proofs.Ring.Tracks

namespace LogPipeline.Ring

variable {r r' : Ring} {fates : Fates}

/-- What is handed out of a ring: the number of the sequence and the slot
as it was written, the end of a batch apart. -/
def Lent.shown (e : Lent) : Nat × EventSlot := (e.sequence, { e.slot with endOfBatch := false })

/-- The first sequence that the consumer has not had yet. -/
def frontier (r : Ring) : Nat := r.consumed + if r.lent then 1 else 0

theorem frontier_of_not_lent (h : r.lent = false) : r.frontier = r.consumed := by
  unfold frontier
  rw [h]
  rfl

theorem frontier_of_lent (h : r.lent = true) : r.frontier = r.consumed + 1 := by
  unfold frontier
  rw [h]
  rfl

theorem frontier_congr (hc : r'.consumed = r.consumed) (hl : r'.lent = r.lent) :
    r'.frontier = r.frontier := by
  unfold frontier
  rw [hc, hl]

/-- Giving back what is lent does not move the frontier. -/
theorem frontier_release (h : r.lent = true) : r.release.frontier = r.frontier :=
  (frontier_of_lent h).symm

/-- All that the consumer has had is resolved. -/
theorem Tracks.resolved_of_lt_frontier (h : r.Tracks fates) {s : Nat} (hs : s < r.frontier) :
    fates.resolvedAt s = true := by
  rcases Nat.lt_or_ge s r.consumed with hlt | hge
  · exact h.released s hlt
  · cases hl : r.lent with
    | false =>
        rw [frontier_of_not_lent hl] at hs
        omega
    | true =>
        rw [frontier_of_lent hl] at hs
        obtain ⟨v, hv⟩ := h.lent_published hl
        have heq : s = r.consumed := by omega
        rw [heq]
        exact Fates.resolvedAt_eq hv

-- ============================================================ passing

/-- The consumer has got from one ring to the other, and what was
published below its cursor is the same. -/
structure Passed (fates : Fates) (r r' : Ring) : Prop where
  tracks : r'.Tracks fates
  capacity_eq : r'.capacity = r.capacity
  claimed_eq : r'.claimed = r.claimed
  closed_eq : r'.closed = r.closed
  taken_eq : r'.taken = r.taken
  le : r.consumed ≤ r'.consumed
  events_eq : fates.eventsBelow r'.consumed = fates.eventsBelow r.consumed

namespace Passed

/-- A consumer that stays where it is has got there. -/
theorem refl (h : r.Tracks fates) : Passed fates r r :=
  ⟨h, rfl, rfl, rfl, rfl, Nat.le_refl _, rfl⟩

theorem trans {r'' : Ring} (h : Passed fates r r') (h' : Passed fates r' r'') :
    Passed fates r r'' :=
  ⟨h'.tracks, h'.capacity_eq.trans h.capacity_eq, h'.claimed_eq.trans h.claimed_eq,
    h'.closed_eq.trans h.closed_eq, h'.taken_eq.trans h.taken_eq, Nat.le_trans h.le h'.le,
    h'.events_eq.trans h.events_eq⟩

end Passed

/-- Releasing a resolved sequence. Its cell is from now on another's. -/
theorem Tracks.release (h : r.Tracks fates) (hres : fates.resolvedAt r.consumed = true) :
    r.release.Tracks fates := by
  refine ⟨h.two_le, h.length_eq, ?_, ?_, h.sound, ?_, ?_, ?_⟩
  · intro s hs
    have hs' : s < r.consumed + 1 := hs
    rcases Nat.lt_or_eq_of_le (Nat.le_of_lt_succ hs') with hlt | heq
    · exact h.released s hlt
    · rw [heq]
      exact hres
  · intro s f hf hown
    have := h.window s f hf hown
    show s < r.consumed + 1 + r.capacity
    omega
  · intro s hs hr
    have hs' : r.consumed + 1 ≤ s := hs
    exact h.stamped s (by omega) hr
  · intro s f hs hf
    have hs' : r.consumed + 1 ≤ s := hs
    exact h.shown s f (by omega) hf
  · intro hl
    cases hl

/-- A resolved sequence at the cursor whose slot is void was dropped. -/
theorem Tracks.dropped_of_isVoid (h : r.Tracks fates) (hres : r.isResolved r.consumed = true)
    (hv : (r.slotAt r.consumed).isVoid = true) : fates[r.consumed]? = some .dropped := by
  obtain ⟨f, hf, hfr⟩ := Fates.resolvedAt_iff.1 (h.sound _ hres)
  have hshow := h.shown _ f (Nat.le_refl _) hf
  cases f with
  | published v =>
      rw [Fate.Shows.not_isVoid hshow] at hv
      cases hv
  | dropped => exact hf
  | _ => cases hfr

/-- One whose slot is not void was published. -/
theorem Tracks.published_of_not_isVoid (h : r.Tracks fates)
    (hres : r.isResolved r.consumed = true) (hv : (r.slotAt r.consumed).isVoid = false) :
    ∃ v, fates[r.consumed]? = some (.published v) := by
  obtain ⟨f, hf, hfr⟩ := Fates.resolvedAt_iff.1 (h.sound _ hres)
  have hshow := h.shown _ f (Nat.le_refl _) hf
  cases f with
  | published v => exact ⟨v, hf⟩
  | dropped =>
      have : (r.slotAt r.consumed).isVoid = true := hshow
      rw [this] at hv
      cases hv
  | _ => cases hfr

/-- A dropped sequence is passed without an event. -/
theorem passed_release_dropped (h : r.Tracks fates) (hd : fates[r.consumed]? = some .dropped) :
    Passed fates r r.release :=
  ⟨h.release (Fates.resolvedAt_eq hd), rfl, rfl, rfl, rfl, Nat.le_succ _,
    Fates.eventsBelow_succ_dropped hd⟩

/-- Skipping passes over dropped sequences. -/
theorem passed_skipVoid (fuel : Nat) (h : r.Tracks fates) :
    Passed fates r (skipVoid fuel r) := by
  induction fuel generalizing r with
  | zero => exact .refl h
  | succ fuel ih =>
      unfold skipVoid
      split
      · next hv =>
        rw [Bool.and_eq_true] at hv
        have hp := passed_release_dropped h (h.dropped_of_isVoid hv.1 hv.2)
        exact hp.trans (ih hp.tracks)
      · exact .refl h

theorem lent_skipVoid (fuel : Nat) (hl : r.lent = false) : (skipVoid fuel r).lent = false := by
  induction fuel generalizing r with
  | zero => exact hl
  | succ fuel ih =>
      unfold skipVoid
      split
      · exact ih rfl
      · exact hl

/-- With fuel for the whole backlog, skipping stops at no void slot. -/
theorem skipVoid_stops (fuel : Nat) (h : r.Tracks fates) (hfuel : r.backlog ≤ fuel) :
    let r' := skipVoid fuel r
    r'.isResolved r'.consumed = true → (r'.slotAt r'.consumed).isVoid = false := by
  induction fuel generalizing r with
  | zero =>
      -- nothing is taken from the cursor on, so nothing is resolved there
      intro r' hres
      have hlt := Fates.lt_of_resolvedAt (h.sound _ hres)
      rw [h.length_eq] at hlt
      have hb : r.claimed - r.consumed ≤ 0 := hfuel
      have hlt' : r.consumed < r.claimed := hlt
      omega
  | succ fuel ih =>
      intro r' hres
      by_cases hv : (r.isResolved r.consumed && (r.slotAt r.consumed).isVoid) = true
      · have hskip : r' = skipVoid fuel r.release := by
          show skipVoid (fuel + 1) r = _
          rw [skipVoid, if_pos hv]
        rw [Bool.and_eq_true] at hv
        have hp := passed_release_dropped h (h.dropped_of_isVoid hv.1 hv.2)
        have hfuel' : r.release.backlog ≤ fuel := by
          have : r.claimed - r.consumed ≤ fuel + 1 := hfuel
          show r.claimed - (r.consumed + 1) ≤ fuel
          omega
        rw [hskip] at hres ⊢
        exact ih hp.tracks hfuel' hres
      · have hskip : r' = r := by
          show skipVoid (fuel + 1) r = _
          rw [skipVoid, if_neg hv]
        rw [hskip] at hres ⊢
        rw [hres, Bool.true_and] at hv
        exact Bool.eq_false_iff.2 hv

-- =========================================================== trying

/-- The slot that is lent out shows the event with the mark of the
batch's end, and that is the only thing that lending changes. -/
theorem Tracks.lend {v : EventValues} (h : r.Tracks fates) (hl : r.lent = false)
    (hv : fates[r.consumed]? = some (.published v)) : r.lend.2.Tracks fates := by
  have hshow : (Fate.published v).Shows
      { r.slotAt r.consumed with endOfBatch := !r.hasEventAt (r.consumed + 1) } :=
    h.shown _ _ (Nat.le_refl _) hv
  have ht := h.resolve hv rfl (Nat.le_refl _) (fun hc => by rw [hl] at hc; cases hc) rfl hshow
  rw [Fates.set_self hv] at ht
  exact ⟨ht.two_le, ht.length_eq, ht.released, ht.window, ht.sound, ht.stamped, ht.shown,
    fun _ => ⟨v, hv⟩⟩

/-- The consumer gets nothing only in front of the first sequence that is
not resolved. -/
theorem tryNext_none (h : r.Tracks fates) (hn : r.tryNext = (none, r')) :
    Passed fates r r' ∧ r'.consumed = fates.reach := by
  unfold tryNext at hn
  simp only at hn
  have hp := passed_skipVoid r.backlog h
  have hstop := skipVoid_stops r.backlog h (Nat.le_refl _)
  split at hn
  · cases hn
  · next hno =>
    cases hn
    refine ⟨hp, Fates.eq_reach hp.tracks.released ?_⟩
    refine Bool.eq_false_iff.2 fun hres => hno ?_
    have hst := hp.tracks.stamped _ (Nat.le_refl _) hres
    unfold hasEventAt
    rw [hst, hstop hst]
    rfl

theorem lent_tryNext_none (hl : r.lent = false) (hn : r.tryNext = (none, r')) :
    r'.lent = false := by
  have := lent_skipVoid r.backlog hl
  unfold tryNext at hn
  simp only at hn
  split at hn
  · cases hn
  · cases hn
    exact this

/-- What the consumer gets is the next published event. -/
theorem tryNext_some {e : Lent} (h : r.Tracks fates) (hl : r.lent = false)
    (hn : r.tryNext = (some e, r')) :
    Passed fates r r' ∧ r'.lent = true ∧ e.sequence = r'.consumed
      ∧ ∃ v, fates[r'.consumed]? = some (.published v)
        ∧ e.slot = { EventSlot.ofValues v with endOfBatch := e.endOfBatch } := by
  unfold tryNext at hn
  simp only at hn
  have hp := passed_skipVoid r.backlog h
  have hl' := lent_skipVoid r.backlog hl
  split at hn
  · next hev =>
    unfold hasEventAt at hev
    rw [Bool.and_eq_true, Bool.not_eq_true'] at hev
    obtain ⟨v, hv⟩ := hp.tracks.published_of_not_isVoid hev.1 hev.2
    have hshow := hp.tracks.shown _ _ (Nat.le_refl _) hv
    cases hn
    refine ⟨⟨hp.tracks.lend hl' hv, hp.capacity_eq, hp.claimed_eq, hp.closed_eq, hp.taken_eq,
      hp.le, hp.events_eq⟩, rfl, rfl, v, hv, ?_⟩
    rw [← hshow]
    rfl
  · cases hn

/-- Releasing what is lent adds it to the events below the cursor. -/
theorem release_lent (h : r.Tracks fates) (hl : r.lent = true) :
    ∃ v, fates[r.consumed]? = some (.published v) ∧ r.release.Tracks fates
      ∧ fates.eventsBelow r.release.consumed
        = fates.eventsBelow r.consumed ++ [(r.consumed, .ofValues v)] := by
  obtain ⟨v, hv⟩ := h.lent_published hl
  exact ⟨v, hv, h.release (Fates.resolvedAt_eq hv), Fates.eventsBelow_succ_published hv⟩

theorem shown_eq {e : Lent} {v : EventValues} (h : e.slot
    = { EventSlot.ofValues v with endOfBatch := e.endOfBatch }) :
    e.shown = (e.sequence, .ofValues v) := by
  unfold Lent.shown
  rw [h]
  rfl

-- ========================================================== draining

/-- With fuel for the whole backlog, draining hands out every event up to
the first sequence that is not resolved, and stops there. -/
theorem drainFor_events (fuel : Nat) (h : r.Tracks fates) (hl : r.lent = false)
    (hfuel : r.backlog ≤ fuel) :
    (drainFor fuel r).2.Tracks fates ∧ (drainFor fuel r).2.consumed = fates.reach
      ∧ fates.eventsBelow r.consumed ++ (drainFor fuel r).1.map Lent.shown
        = fates.eventsBelow fates.reach := by
  induction fuel generalizing r with
  | zero =>
      -- without a backlog the cursor stands at the end of the record
      have hb : r.claimed - r.consumed ≤ 0 := hfuel
      have hle := h.consumed_le
      have hend : r.consumed = fates.reach := by
        apply Fates.eq_reach h.released
        apply Bool.eq_false_iff.2
        intro hres
        have hlt := Fates.lt_of_resolvedAt hres
        rw [h.length_eq] at hlt
        omega
      refine ⟨h, hend, ?_⟩
      show fates.eventsBelow r.consumed ++ [] = _
      rw [List.append_nil, hend]
  | succ fuel ih =>
      unfold drainFor
      split
      · next r' hn =>
        obtain ⟨hp, hend⟩ := tryNext_none h hn
        refine ⟨hp.tracks, hend, ?_⟩
        show fates.eventsBelow r.consumed ++ [] = _
        rw [List.append_nil, ← hp.events_eq, hend]
      · next e r' hn =>
        obtain ⟨hp, hl', hseq, v, hv, hslot⟩ := tryNext_some h hl hn
        obtain ⟨v', hv', ht, hev⟩ := release_lent hp.tracks hl'
        rw [hv] at hv'
        cases hv'
        have hfuel' : r'.release.backlog ≤ fuel := by
          have hb : r.claimed - r.consumed ≤ fuel + 1 := hfuel
          have hle := hp.le
          have hc := hp.claimed_eq
          show r'.claimed - (r'.consumed + 1) ≤ fuel
          omega
        obtain ⟨ht', hend, hevents⟩ := ih ht rfl hfuel'
        refine ⟨ht', hend, ?_⟩
        show fates.eventsBelow r.consumed
          ++ (e.shown :: (drainFor fuel r'.release).1.map Lent.shown) = _
        rw [← hevents, hev, hp.events_eq, shown_eq hslot, hseq, List.append_assoc]
        rfl

end LogPipeline.Ring
