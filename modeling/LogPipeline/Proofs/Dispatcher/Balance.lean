/-
The books of a dispatcher beside the counters that it shares with
producers. What is counted as published, and by whom, is no business of
the dispatcher; what was published is told by the record of its ring. The
counters square with the record (`Squares`) if as many events are counted
as published as the record shows, and as many as delivered or failed as
it shows below the consumer's cursor.

Each side keeps this on its own. A step of the dispatcher counts an event
where it releases the sequence, and nowhere else (`squares_step`); one
that gives up notes what it leaves behind. A producer that has its answer
counts it, and touches nothing below the cursor (`squares_retry`). So when
a dispatcher has finished and left nothing behind, the cursor stands at
the end of the record, and all that was published is delivered or failed
(`Squares.balanced`).
-/
import LogPipeline.Proofs.Dispatcher.Replay

namespace LogPipeline

/-- How an answer to a waiting caller counts. -/
def Metrics.told (answer : Option (Except LogError Nat)) (m : Metrics) : Metrics :=
  match answer with
  | some (.ok _) => m.count .published
  | some (.error _) => m.count .rejected
  | none => m

namespace Dispatcher

/-- The counters square with the record, and so many calls have been
answered, in one way or another. -/
structure Squares (fates : Fates) (answered : Nat) (d : Dispatcher) (m : Metrics) : Prop where
  tracks : d.ring.Tracks fates
  lent_eq : d.ring.lent = d.phase.isHandling
  answered_eq : m.filtered + m.rejected + m.published = answered
  published_eq : m.published = fates.published.length
  delivered_eq : m.delivered + m.failures = (fates.eventsBelow d.ring.consumed).length
  closed : d.closed = true → d.ring.closed = true
  /-- A dispatcher that goes knows what it leaves behind. -/
  gone : d.phase.isGone = true → d.ring.closed = true
    ∧ (d.abandoned = 0 → d.ring.claimed ≤ d.ring.consumed)

variable {H : Type} {h : Handler H} {d d' : Dispatcher} {s s' : Shared H} {m : Metrics}
  {fates : Fates} {answered : Nat}

/-- On a new ring there is nothing to square. -/
theorem squares_start (size : Nat) : Squares [] 0 (.onNewRing size) .zero where
  tracks := (Ring.tracks_ofSize size).take rfl
  lent_eq := rfl
  answered_eq := rfl
  published_eq := rfl
  delivered_eq := rfl
  closed hc := by cases hc
  gone hg := by cases hg

namespace Squares

/-- The dispatcher turns to another phase, or is changed from outside. -/
theorem turn {p : Phase} (hq : d.Squares fates answered m) (hp : d.phase = p)
    (hring : d'.ring = d.ring) (hclosed : d'.closed = d.closed)
    (habandoned : d'.abandoned = d.abandoned) (hhandling : d'.phase.isHandling = p.isHandling)
    (hgone : d'.phase.isGone = p.isGone) : d'.Squares fates answered m where
  tracks := hring ▸ hq.tracks
  lent_eq := by rw [hring, hhandling, hq.lent_eq, hp]
  answered_eq := hq.answered_eq
  published_eq := hq.published_eq
  delivered_eq := hring ▸ hq.delivered_eq
  closed := by
    rw [hring, hclosed]
    exact hq.closed
  gone := by
    rw [hring, habandoned, hgone, ← hp]
    exact hq.gone

/-- A ticket changes no counter. -/
theorem requestFlush (hq : d.Squares fates answered m) :
    d.requestFlush.2.Squares fates answered m :=
  hq.turn rfl rfl rfl rfl rfl rfl

theorem requestStop (hq : d.Squares fates answered m) : d.requestStop.Squares fates answered m :=
  hq.turn rfl rfl rfl rfl rfl rfl

theorem expire (hq : d.Squares fates answered m) : d.expire.Squares fates answered m :=
  hq.turn rfl rfl rfl rfl rfl rfl

/-- Where the dispatcher has finished and left nothing behind, nothing is
unresolved, and all that was published is delivered or failed. -/
theorem balanced (hq : d.Squares fates answered m) (hfinished : d.isFinished = true)
    (hclean : d.abandoned = 0) :
    m.published = m.delivered + m.failures ∧ ∀ f ∈ fates, f.isResolved = true := by
  have hphase : d.phase = .finished := by simpa [isFinished] using hfinished
  have hcaught := (hq.gone (hphase ▸ rfl)).2 hclean
  have hend : fates.length ≤ d.ring.consumed := hq.tracks.length_eq ▸ hcaught
  constructor
  · have hall : (fates.eventsBelow d.ring.consumed).map Prod.snd
        = fates.published.map EventSlot.ofValues := by
      refine Fates.map_eventsBelow_of_mute fun t f ht hf => ?_
      rw [List.getElem?_eq_none (Nat.le_trans hend ht)] at hf
      cases hf
    have hlength := congrArg List.length hall
    rw [List.length_map, List.length_map] at hlength
    rw [hq.delivered_eq, hq.published_eq, hlength]
  · intro f hf
    obtain ⟨t, ht⟩ := List.mem_iff_getElem?.1 hf
    have hres := hq.tracks.released t (Nat.lt_of_lt_of_le (Fates.lt_of_getElem? ht) hend)
    rw [Fates.resolvedAt_eq ht] at hres
    exact hres

end Squares

-- ======================================================= the dispatcher

/-- An event that is held up stays lent; one that is over is counted as it
is released. -/
theorem squares_afterEvent {c : Call H} (hafter : afterEvent c d s = (d', s'))
    (hq : Squares fates answered { d with phase := .handling } s.metrics) :
    d'.Squares fates answered s'.metrics := by
  rw [show d' = _ from (congrArg Prod.fst hafter).symm,
    show s' = _ from (congrArg Prod.snd hafter).symm]
  unfold afterEvent
  cases c.outcome with
  | none => exact hq
  | some o =>
      obtain ⟨v, -, htracks, hevents⟩ := Ring.release_lent hq.tracks hq.lent_eq
      have hdelivered : s.metrics.delivered + s.metrics.failures + 1
          = (fates.eventsBelow d.ring.release.consumed).length := by
        rw [hevents, List.length_append, hq.delivered_eq]
        rfl
      -- which of the two counters it is does not matter
      cases o with
      | done =>
          exact ⟨htracks, rfl, hq.answered_eq, hq.published_eq,
            (Nat.add_right_comm _ _ _).trans hdelivered, hq.closed, fun hg => by cases hg⟩
      | failed e | panicked text =>
          exact ⟨htracks, rfl, hq.answered_eq, hq.published_eq, hdelivered, hq.closed,
            fun hg => by cases hg⟩

/-- The end of a flush leaves the books square. -/
theorem squares_afterFlush {p : Phase} {handled : Bool} {ticket : Nat} {c : Call H}
    (hafter : afterFlush handled ticket c d s = (d', s')) (hq : d.Squares fates answered s.metrics)
    (hp : d.phase = p) (hhandling : p.isHandling = false) (hgone : p.isGone = false) :
    d'.Squares fates answered s'.metrics := by
  rw [show d' = _ from (congrArg Prod.fst hafter).symm,
    show s' = _ from (congrArg Prod.snd hafter).symm]
  unfold afterFlush
  cases c.outcome with
  | none => exact hq.turn hp rfl rfl rfl hhandling.symm hgone.symm
  | some o => exact hq.turn hp rfl rfl rfl hhandling.symm hgone.symm

theorem squares_afterStop {p : Phase} {c : Call H} (hafter : afterStop c d s = (d', s'))
    (hq : d.Squares fates answered s.metrics) (hp : d.phase = p)
    (hhandling : p.isHandling = false) (hgone : p.isGone = true) :
    d'.Squares fates answered s'.metrics := by
  rw [show d' = _ from (congrArg Prod.fst hafter).symm,
    show s' = _ from (congrArg Prod.snd hafter).symm]
  unfold afterStop
  cases c.outcome with
  | none => exact hq.turn hp rfl rfl rfl hhandling.symm hgone.symm
  | some o => exact hq.turn hp rfl rfl rfl hhandling.symm hgone.symm

/-- The consumer moves on over dropped sequences, and may stop to lend. -/
theorem Squares.pass {p : Phase} {r : Ring} (hq : d.Squares fates answered m)
    (hpass : Ring.Passed fates d.ring r) (hlent : r.lent = p.isHandling)
    (hp : p.isGone = false) :
    Squares fates answered { d with ring := r, phase := p } m where
  tracks := hpass.tracks
  lent_eq := hlent
  answered_eq := hq.answered_eq
  published_eq := hq.published_eq
  delivered_eq := hq.delivered_eq.trans (congrArg List.length hpass.events_eq).symm
  closed hc := hpass.closed_eq.trans (hq.closed hc)
  gone hg := by
    have hg' : p.isGone = true := hg
    rw [hp] at hg'
    cases hg'

/-- The end of a batch is counted on its own. -/
theorem Squares.endOfBatch (hq : d.Squares fates answered m) :
    d.Squares fates answered (m.count .endOfBatch) :=
  ⟨hq.tracks, hq.lent_eq, hq.answered_eq, hq.published_eq, hq.delivered_eq, hq.closed, hq.gone⟩

/-- On a closed ring the dispatcher decides to leave, and says how much it
leaves behind. -/
theorem Squares.leave {handled : Bool} (hq : d.Squares fates answered m)
    (hphase : d.phase = .deciding handled) (hclosed : d.ring.closed = true) {n : Nat}
    (hleft : n = 0 → d.ring.claimed ≤ d.ring.consumed) :
    Squares fates answered { d with abandoned := n, phase := .leaving } m :=
  have hlent : d.ring.lent = false := hq.lent_eq.trans (congrArg Phase.isHandling hphase)
  ⟨hq.tracks, hlent, hq.answered_eq, hq.published_eq, hq.delivered_eq, hq.closed,
    fun _ => ⟨hclosed, hleft⟩⟩

/-- Every step of the dispatcher keeps the books. -/
theorem squares_step (hq : d.Squares fates answered s.metrics)
    (hs : step h d s = some (d', s')) : d'.Squares fates answered s'.metrics := by
  cases stepped_of_step hs with
  | close hphase =>
      exact ⟨hq.tracks.close, (hphase ▸ hq.lent_eq :), hq.answered_eq, hq.published_eq,
        hq.delivered_eq, fun _ => rfl, fun hg => by cases hg⟩
  | drain hphase | due hphase | undue hphase | store hphase | again hphase =>
      exact hq.turn hphase rfl rfl rfl rfl rfl
  | dry hphase hnext =>
      have hlent : d.ring.lent = false := hq.lent_eq.trans (congrArg Phase.isHandling hphase)
      exact hq.pass (Ring.tryNext_none hq.tracks hnext).1 (Ring.lent_tryNext_none hlent hnext) rfl
  | @event handled e ring _ _ hphase hnext hafter =>
      have hlent : d.ring.lent = false := hq.lent_eq.trans (congrArg Phase.isHandling hphase)
      obtain ⟨hpass, hlent', -⟩ := Ring.tryNext_some hq.tracks hlent hnext
      have hlend := hq.pass (p := .handling) hpass hlent' rfl
      refine squares_afterEvent hafter ?_
      unfold Shared.counted
      split
      · exact hlend.endOfBatch
      · exact hlend
  | eventOn hphase _ hafter =>
      exact squares_afterEvent hafter (hq.turn hphase rfl rfl rfl rfl rfl)
  | flush hphase hafter | flushOn hphase _ hafter =>
      exact squares_afterFlush hafter hq hphase rfl rfl
  | leave hphase hclosed hup =>
      exact hq.leave hphase (hq.closed hclosed) fun _ => of_decide_eq_true hup
  | giveUp hphase hclosed =>
      -- what is noted as left behind is not nothing
      exact hq.leave hphase (hq.closed hclosed) fun hnone => Nat.sub_eq_zero_iff_le.1 hnone
  | depart hphase =>
      have hgone := hq.gone (hphase ▸ rfl)
      exact ⟨hq.tracks.close.untake, (hphase ▸ hq.lent_eq :), hq.answered_eq, hq.published_eq,
        hq.delivered_eq, fun _ => rfl, fun _ => ⟨rfl, hgone.2⟩⟩
  | stop hphase hafter | stopOn hphase _ hafter => exact squares_afterStop hafter hq hphase rfl rfl

/-- They are square however long a dispatcher goes on. -/
theorem squares_settleFor (n : Nat) (hq : d.Squares fates answered s.metrics) :
    (settleFor h n d s).1.Squares fates answered (settleFor h n d s).2.metrics := by
  induction n generalizing d s with
  | zero => exact hq
  | succ n ih =>
      unfold settleFor
      split
      · next hs => exact ih (squares_step hq hs)
      · exact hq

-- ========================================================= the producers

namespace Squares

/-- A call that comes to nothing is counted, as one or the other. -/
theorem turnedAway (hq : d.Squares fates answered m) {c : Counter}
    (hc : c = .filtered ∨ c = .rejected) : d.Squares fates (answered + 1) (m.count c) := by
  have hanswered := hq.answered_eq
  refine ⟨hq.tracks, hq.lent_eq, ?_, ?_, ?_, hq.closed, hq.gone⟩
  · rcases hc with rfl | rfl
    · show m.filtered + 1 + m.rejected + m.published = answered + 1
      omega
    · show m.filtered + (m.rejected + 1) + m.published = answered + 1
      omega
  · rcases hc with rfl | rfl <;> exact hq.published_eq
  · rcases hc with rfl | rfl <;> exact hq.delivered_eq

theorem waits (hq : d.Squares fates answered m) : d.Squares fates answered (m.count .waits) :=
  ⟨hq.tracks, hq.lent_eq, hq.answered_eq, hq.published_eq, hq.delivered_eq, hq.closed, hq.gone⟩

/-- Producers touch nothing below the cursor. -/
theorem kept {t : Traffic} {m' : Metrics} {answered' : Nat} (hq : d.Squares fates answered m)
    (hk : Traffic.Kept ⟨d.ring, fates⟩ t)
    (hanswered : m'.filtered + m'.rejected + m'.published = answered')
    (hpublished : m'.published = t.fates.published.length)
    (hdelivered : m'.delivered + m'.failures = m.delivered + m.failures) :
    Squares t.fates answered' { d with ring := t.ring } m' where
  tracks := hk.tracks
  lent_eq := hk.lent_eq.trans hq.lent_eq
  answered_eq := hanswered
  published_eq := hpublished
  delivered_eq := by
    have hbelow := hk.eventsBelow_eq hq.tracks.released
    show _ = (t.fates.eventsBelow t.ring.consumed).length
    rw [hdelivered, hq.delivered_eq, hk.consumed_eq, hbelow]
  closed hc := hk.closed_eq.trans (hq.closed hc)
  gone hg := by
    obtain ⟨hclosed, hcaught⟩ := hq.gone hg
    refine ⟨hk.closed_eq.trans hclosed, fun hclean => ?_⟩
    show t.ring.claimed ≤ t.ring.consumed
    rw [hk.claimed_eq hclosed, hk.consumed_eq]
    exact hcaught hclean

end Squares

/-- A producer that takes a sequence has no answer yet. -/
theorem squares_reserve {seq : Nat} {r : Ring} (hq : d.Squares fates answered m)
    (hr : d.ring.reserve = some (seq, r)) :
    seq = fates.length ∧ Squares (fates ++ [.reserved]) answered { d with ring := r } m := by
  have hproduce : Traffic.produce ⟨d.ring, fates⟩ .reserve = ⟨r, fates ++ [.reserved]⟩ := by
    simp only [Traffic.produce, hr]
  have hkept := Traffic.kept_produce (t := ⟨d.ring, fates⟩) hq.tracks .reserve
  rw [hproduce] at hkept
  constructor
  · unfold Ring.reserve at hr
    split at hr
    · cases hr
    · cases hr
      exact hq.tracks.length_eq.symm
  · refine hq.kept hkept hq.answered_eq ?_ rfl
    show _ = (Fates.published (fates ++ [.reserved])).length
    unfold Fates.published
    rw [List.filterMap_append, List.length_append]
    exact hq.published_eq

/-- A producer that asks for its cell and is answered counts the answer. -/
theorem squares_retry {w : Ring.Waiter} (hq : d.Squares fates answered m)
    (hw : fates[w.sequence]? = some .reserved) :
    ∃ f, Traffic.Told w (d.ring.retry w).1 f
      ∧ Squares (fates.set w.sequence f) (answered + (d.ring.retry w).1.toList.length)
        { d with ring := (d.ring.retry w).2 } (m.told (d.ring.retry w).1) := by
  obtain ⟨f, htold, hattempt⟩ := Traffic.attempt_eq (t := ⟨d.ring, fates⟩) hw
  have hkept := Traffic.kept_attempt (t := ⟨d.ring, fates⟩) hq.tracks w
  rw [hattempt] at hkept
  have hlength := Fates.length_published_set hw rfl f
  have hanswered := hq.answered_eq
  have hpublished := hq.published_eq
  refine ⟨f, htold, ?_⟩
  dsimp only at htold hkept
  generalize d.ring.retry w = o at htold hkept ⊢
  obtain ⟨answer, r⟩ := o
  refine hq.kept hkept ?_ ?_ ?_
  · rcases answer with _ | _ | _
    · exact hanswered
    · show m.filtered + (m.rejected + 1) + m.published = answered + 1
      omega
    · show m.filtered + m.rejected + (m.published + 1) = answered + 1
      omega
  · show _ = (Fates.published (fates.set w.sequence f)).length
    rw [hlength, ← hpublished]
    rcases answer with _ | _ | _
    · rw [show f = .reserved from htold]
      rfl
    · rcases htold with rfl | rfl <;> rfl
    · rw [show f = .published w.values from htold]
      rfl
  · rcases answer with _ | _ | _ <;> rfl

end Dispatcher

end LogPipeline
