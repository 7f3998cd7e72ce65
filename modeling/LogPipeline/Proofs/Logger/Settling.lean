/-
Callers that wait for a cell, and loggers that settle.

As long as producers publish what they reserve, a sequence that is not
resolved belongs to a caller that waits (`Fates.Attended`). Where the
dispatcher rests, the first of these sequences is the one that the
consumer comes to next, and so its cell is free; whoever has it gets an
answer when asking again, be it a refusal (`Attended.exists_first`,
`Ring.retry_free`). So each round of `settle` leaves fewer callers that
wait, and as many rounds as there are callers leave none
(`still_settleFor`). The dispatcher then waits for nothing but new events,
or has finished if a stop was asked for (`Still.open`, `Still.gone`).
-/
import LogPipeline.Logger.Basic
import LogPipeline.Proofs.Appender.Crews
import LogPipeline.Proofs.Dispatcher.Rest
import LogPipeline.Proofs.Ring.Waiting

namespace LogPipeline

-- ============================================================= waiting

/-- Those who wait have a sequence each, and no other sequence is open. -/
structure Fates.Attended (fates : Fates) (ws : List Ring.Waiter) : Prop where
  waiting : ∀ w ∈ ws, fates[w.sequence]? = some .reserved
  apart : (ws.map (·.sequence)).Nodup
  owned : ∀ s < fates.length, fates.resolvedAt s = false → ∃ w ∈ ws, w.sequence = s

namespace Fates.Attended

variable {fates : Fates} {ws : List Ring.Waiter} {w : Ring.Waiter}

theorem start : Attended [] [] where
  waiting w hw := by cases hw
  apart := List.nodup_nil
  owned s hs := absurd hs (Nat.not_lt_zero s)

theorem awaited (h : fates.Attended ws) : fates.Awaited ws := ⟨h.waiting, h.apart⟩

/-- In which order they wait is of no concern. -/
theorem perm (h : fates.Attended ws) {ws' : List Ring.Waiter} (hp : ws'.Perm ws) :
    fates.Attended ws' where
  waiting := (h.awaited.perm hp).waiting
  apart := (h.awaited.perm hp).apart
  owned s hs hres := by
    obtain ⟨w, hw, heq⟩ := h.owned s hs hres
    exact ⟨w, hp.mem_iff.2 hw, heq⟩

/-- One more caller takes a sequence. -/
theorem draw (h : fates.Attended ws) (v : EventValues) :
    Fates.Attended (fates ++ [.reserved]) (⟨fates.length, v⟩ :: ws) where
  waiting := (h.awaited.draw v).waiting
  apart := (h.awaited.draw v).apart
  owned := by
    intro s hs hres
    rw [List.length_append, List.length_singleton] at hs
    rcases Nat.lt_or_eq_of_le (Nat.le_of_lt_succ hs) with hlt | heq
    · unfold Fates.resolvedAt at hres
      rw [List.getElem?_append_left hlt] at hres
      obtain ⟨w, hw, heq⟩ := h.owned s hlt hres
      exact ⟨w, List.mem_cons_of_mem _ hw, heq⟩
    · exact ⟨_, List.mem_cons_self, heq.symm⟩

/-- A caller gets an answer, and its sequence is resolved. -/
theorem answered (h : fates.Attended (w :: ws)) {f : Fate} (hf : f.isResolved = true) :
    Fates.Attended (fates.set w.sequence f) ws where
  waiting := (h.awaited.answered f).waiting
  apart := (h.awaited.answered f).apart
  owned := by
    intro s hs hres
    rw [List.length_set] at hs
    rw [Fates.resolvedAt_set fates (Fates.lt_of_getElem? (h.waiting w List.mem_cons_self))] at hres
    split at hres
    · rw [hf] at hres
      cases hres
    · next hne =>
      obtain ⟨w', hw', heq⟩ := h.owned s hs hres
      rcases List.mem_cons.1 hw' with rfl | hw'
      · exact absurd heq hne
      · exact ⟨w', hw', heq⟩

/-- Of those who wait, one has the first sequence that is not resolved. -/
theorem exists_first (h : fates.Attended ws) (hne : ws ≠ []) :
    ∃ w ∈ ws, w.sequence = fates.reach := by
  obtain ⟨w₀, hw₀⟩ := List.exists_mem_of_ne_nil ws hne
  have hreserved := h.waiting w₀ hw₀
  have hle : fates.reach ≤ w₀.sequence := by
    refine Nat.le_of_not_lt fun hlt => ?_
    have hres := Fates.resolvedAt_of_lt_reach hlt
    rw [Fates.resolvedAt_eq hreserved] at hres
    cases hres
  exact h.owned _ (Nat.lt_of_le_of_lt hle (Fates.lt_of_getElem? hreserved))
    (Fates.not_resolvedAt_reach fates)

/-- When nobody waits, all is resolved. -/
theorem reach_eq (h : fates.Attended []) : fates.reach = fates.length := by
  refine Nat.le_antisymm (List.takeWhile_prefix Fate.isResolved).length_le ?_
  refine Nat.le_of_not_lt fun hlt => ?_
  obtain ⟨w, hw, -⟩ := h.owned _ hlt (Fates.not_resolvedAt_reach fates)
  cases hw

end Fates.Attended

namespace Ring

variable {r : Ring} {fates : Fates} {w : Waiter}

/-- The cell that the caller waits for is not free. -/
def blocks (r : Ring) (w : Waiter) : Bool := !r.isFree w.sequence

/-- A caller whose cell is not free goes on waiting. -/
theorem retry_blocked (htaken : r.taken = true) (hblocked : r.blocks w = true) :
    r.retry w = (none, r) := by
  have hbusy : r.isFree w.sequence = false := by simpa [blocks] using hblocked
  unfold retry confirm
  simp [hbusy, htaken]

/-- A caller whose cell is free gets an answer, and the sequence is resolved. -/
theorem retry_free (ht : r.Tracks fates) (hw : fates[w.sequence]? = some .reserved)
    (hunblocked : r.blocks w = false) :
    ∃ f answer cells, f.isResolved = true
      ∧ r.retry w = (some answer, { r with cells := cells })
      ∧ ({ r with cells := cells } : Ring).Tracks (fates.set w.sequence f) := by
  have hfree : r.isFree w.sequence = true := by simpa [blocks] using hunblocked
  have hgrant := ht.mark hw (f := .granted) rfl rfl fun _ => hfree
  have hgranted := Fates.getElem?_set_self hw .granted
  by_cases hclosed : r.closed = true
  · have hdropped := hgrant.abandon hgranted
    rw [List.set_set] at hdropped
    refine ⟨.dropped, .error .stopped, _, rfl, ?_, hdropped⟩
    unfold retry confirm
    rw [if_pos hfree, if_pos hclosed]
    rfl
  · have hpublished := hgrant.publish hgranted w.values
    rw [List.set_set] at hpublished
    refine ⟨.published w.values, .ok w.sequence, _, rfl, ?_, hpublished⟩
    unfold retry confirm
    rw [if_pos hfree, if_neg hclosed]
    rfl

end Ring

namespace Logger

variable {α S : Type} {ops : AppenderOps α S} {fates : Fates} {ws : List Ring.Waiter}
  {l : Logger α} {d : Dispatcher}

-- ============================================================= one round

/-- A logger whose dispatcher is between passes, where these callers have
all that is not resolved. -/
structure Tended (fates : Fates) (ws : List Ring.Waiter) (l : Logger α) (d : Dispatcher) :
    Prop where
  backend_eq : ∃ set round, l.backend = .async d set round
  phase_eq : d.phase = .top
  calm : d.Calm fates
  attended : fates.Attended ws

/-- The dispatcher comes to rest, and nobody else does anything. -/
theorem rested_runDispatcher (hp : (Crew.handler ops).Prompt) (h : Tended fates ws l d)
    (site : Site S) :
    ∃ d', Dispatcher.Rested fates d d'
      ∧ (∃ set round, (l.runDispatcher ops site).1.backend = .async d' set round)
      ∧ (l.runDispatcher ops site).1.waiters = l.waiters
      ∧ (l.runDispatcher ops site).1.accepting = l.accepting := by
  obtain ⟨set, round, hbackend⟩ := h.backend_eq
  have hrested := Dispatcher.rested_settle hp h.calm h.phase_eq
    ⟨l.metrics, site.status, ⟨set, round, site.world⟩⟩
  unfold runDispatcher
  rw [hbackend]
  exact ⟨_, hrested, ⟨_, _, rfl⟩, rfl, rfl⟩

/-- Resolving sequences touches cells alone. -/
def withCells (d : Dispatcher) (cells : Cells RingCell) : Dispatcher :=
  { d with ring := { d.ring with cells := cells } }

/-- One that waits tries again, and goes on waiting just if the cell of its
sequence is not free. -/
theorem tended_retryWaiter {w : Ring.Waiter} (rest : List Ring.Waiter)
    (h : Tended fates (w :: (rest ++ l.waiters)) l d) :
    ∃ fates' cells, Tended fates' (rest ++ (l.retryWaiter w).waiters) (l.retryWaiter w)
        (withCells d cells)
      ∧ (l.retryWaiter w).waiters
        = l.waiters ++ (if d.ring.blocks w then [w] else [])
      ∧ (l.retryWaiter w).accepting = l.accepting := by
  obtain ⟨set, round, hbackend⟩ := h.backend_eq
  have hw := h.attended.waiting w List.mem_cons_self
  unfold retryWaiter
  rw [hbackend]
  dsimp only
  cases hblocks : d.ring.blocks w with
  | true =>
      rw [Ring.retry_blocked h.calm.taken_eq hblocks]
      refine ⟨fates, d.ring.cells, ⟨⟨set, round, rfl⟩, h.phase_eq, h.calm, ?_⟩, ?_, rfl⟩
      · refine h.attended.perm ?_
        rw [← List.append_assoc]
        exact List.perm_append_singleton w (rest ++ l.waiters)
      · rfl
  | false =>
      obtain ⟨f, answer, cells, hf, hretry, htracks⟩ := Ring.retry_free h.calm.tracks hw hblocks
      rw [hretry]
      have hcalm : (withCells d cells).Calm (fates.set w.sequence f) :=
        { h.calm with tracks := htracks }
      have hattended := h.attended.answered hf
      have hwaiters : l.waiters = l.waiters ++ [] := (List.append_nil _).symm
      rcases answer with _ | _
      · exact ⟨_, cells, ⟨⟨set, round, rfl⟩, h.phase_eq, hcalm, hattended⟩, hwaiters, rfl⟩
      · exact ⟨_, cells, ⟨⟨set, round, rfl⟩, h.phase_eq, hcalm, hattended⟩, hwaiters, rfl⟩

/-- All that wait try again, one after another. -/
theorem tended_retryAll (rest : List Ring.Waiter) (h : Tended fates (rest ++ l.waiters) l d) :
    ∃ fates' cells l', l' = rest.foldl retryWaiter l
      ∧ Tended fates' l'.waiters l' (withCells d cells)
      ∧ l'.waiters = l.waiters ++ rest.filter d.ring.blocks
      ∧ l'.accepting = l.accepting := by
  induction rest generalizing fates l d with
  | nil => exact ⟨fates, d.ring.cells, l, rfl, h, (List.append_nil _).symm, rfl⟩
  | cons w rest ih =>
      obtain ⟨fates₁, cells₁, h₁, hwaiters₁, haccepting₁⟩ := tended_retryWaiter rest h
      obtain ⟨fates', cells, l', hl', h', hwaiters, haccepting⟩ := ih h₁
      refine ⟨fates', cells, l', hl', h', ?_, haccepting.trans haccepting₁⟩
      rw [hwaiters, hwaiters₁, List.append_assoc, List.filter_cons]
      show _ ++ (_ ++ rest.filter d.ring.blocks) = _
      split <;> rfl

theorem tended_retryWaiters (h : Tended fates l.waiters l d) :
    ∃ fates' cells, Tended fates' l.retryWaiters.waiters l.retryWaiters (withCells d cells)
      ∧ l.retryWaiters.waiters = l.waiters.filter d.ring.blocks
      ∧ l.retryWaiters.accepting = l.accepting := by
  have h₀ : Tended fates (l.waiters ++ ([] : List Ring.Waiter)) { l with waiters := [] } d := by
    rw [List.append_nil]
    exact { h with }
  obtain ⟨fates', cells, l', hl', h', hwaiters, haccepting⟩ :=
    tended_retryAll (l := { l with waiters := [] }) l.waiters h₀
  rw [show l.retryWaiters = l' from hl'.symm]
  exact ⟨fates', cells, h', hwaiters, haccepting⟩

/-- Where the ring is dry, one of those who wait gets an answer. -/
theorem length_retryWaiters (h : Tended fates l.waiters l d) (hdry : d.ring.consumed = fates.reach)
    (hne : l.waiters ≠ []) : l.retryWaiters.waiters.length < l.waiters.length := by
  obtain ⟨fates', cells, -, hwaiters, -⟩ := tended_retryWaiters h
  obtain ⟨w, hw, hfirst⟩ := h.attended.exists_first hne
  have hunblocked : ¬ d.ring.blocks w = true := by
    unfold Ring.blocks Ring.isFree
    rw [hfirst, ← hdry, decide_eq_true (Nat.lt_add_of_pos_right d.ring.capacity_pos)]
    exact Bool.false_ne_true
  rw [hwaiters]
  exact List.length_filter_lt_length_iff_exists.2 ⟨w, hw, hunblocked⟩

-- ============================================================= settling

/-- A logger that has settled, with the dispatcher `d` before: nobody waits,
and the dispatcher does not go on by itself. -/
structure Still (d : Dispatcher) (l : Logger α) (d' : Dispatcher) : Prop where
  backend_eq : ∃ set round, l.backend = .async d' set round
  waiters_eq : l.waiters = []
  same : Dispatcher.Same d d'
  rest : ∃ fates : Fates, (d'.Waits fates ∧ fates.Attended [])
    ∨ (d.stopRequested = true ∧ d'.Gone fates)

/-- Where the dispatcher has finished nobody waits. -/
theorem eq_nil_of_gone (hg : d.Gone fates) (h : fates.Attended ws) : ws = [] := by
  refine List.eq_nil_iff_forall_not_mem.2 fun w hw => ?_
  have hreserved := h.waiting w hw
  have hlt := Fates.lt_of_getElem? hreserved
  have hle : d.ring.claimed ≤ d.ring.consumed := of_decide_eq_true hg.isCaughtUp
  rw [hg.tracks.length_eq] at hlt
  have hres := hg.tracks.released w.sequence (Nat.lt_of_lt_of_le hlt hle)
  rw [Fates.resolvedAt_eq hreserved] at hres
  cases hres

theorem retryWaiters_nil (hw : l.waiters = []) : l.retryWaiters = { l with waiters := [] } := by
  unfold retryWaiters
  rw [hw]
  rfl

/-- Rounds enough bring a logger to rest. -/
theorem still_settleFor (hp : (Crew.handler ops).Prompt) (fuel : Nat) (site : Site S)
    (h : Tended fates l.waiters l d) (hfuel : l.waiters.length ≤ fuel) :
    ∃ d', Still d (settleFor ops fuel l site).1 d'
      ∧ (settleFor ops fuel l site).1.accepting = l.accepting := by
  induction fuel generalizing fates l d site with
  | zero =>
      have hnil : l.waiters = [] := List.eq_nil_of_length_eq_zero (Nat.le_zero.1 hfuel)
      obtain ⟨d₁, hrested, hbackend, hwaiters, haccepting⟩ := rested_runDispatcher hp h site
      refine ⟨d₁, ⟨hbackend, hwaiters.trans hnil, hrested.same, fates, ?_⟩, haccepting⟩
      exact hrested.rest.imp_left fun hwaits => ⟨hwaits, hnil ▸ h.attended⟩
  | succ fuel ih =>
      obtain ⟨d₁, hrested, hbackend, hwaiters, haccepting⟩ := rested_runDispatcher hp h site
      obtain ⟨⟨l₁, site₁⟩, ho⟩ : ∃ o, o = l.runDispatcher ops site := ⟨_, rfl⟩
      rw [← ho] at hbackend hwaiters haccepting
      unfold settleFor
      rw [← ho]
      dsimp only at hbackend hwaiters haccepting ⊢
      rw [← hwaiters] at h hfuel
      -- where nobody waits there is no other round
      have hdone : l₁.waiters = [] → ∃ d', Still d l₁.retryWaiters d'
          ∧ l₁.retryWaiters.accepting = l.accepting := by
        intro hnil
        rw [retryWaiters_nil hnil]
        refine ⟨d₁, ⟨hbackend, rfl, hrested.same, fates, ?_⟩, haccepting⟩
        exact hrested.rest.imp_left fun hwaits => ⟨hwaits, hnil ▸ h.attended⟩
      rcases hrested.rest with hwaits | ⟨hstop, hgone⟩
      · have h₁ : Tended fates l₁.waiters l₁ d₁ :=
          ⟨hbackend, hwaits.phase_eq, hwaits.calm, h.attended⟩
        split
        · next hless =>
          obtain ⟨fates₂, cells, h₂, -, haccepting₂⟩ := tended_retryWaiters h₁
          obtain ⟨d', hstill, haccepting'⟩ := ih site₁ h₂ (by omega)
          refine ⟨d', ?_, haccepting'.trans (haccepting₂.trans haccepting)⟩
          have hstop : (withCells d₁ cells).stopRequested = d.stopRequested :=
            hrested.same.stopRequested_eq
          exact { hstill with
            same := hrested.same.trans ⟨hstill.same.stopRequested_eq, hstill.same.requested_eq,
              hstill.same.attached_eq, hstill.same.claimed_eq⟩
            rest := hstop ▸ hstill.rest }
        · next hsame =>
          refine hdone ?_
          refine Decidable.byContradiction fun hne => ?_
          exact hsame (length_retryWaiters h₁ hwaits.dry hne)
      · have hnil := eq_nil_of_gone hgone h.attended
        rw [if_neg]
        · exact hdone hnil
        · rw [hnil]
          exact Nat.not_lt_zero _

theorem still_settle (hp : (Crew.handler ops).Prompt) (h : Tended fates l.waiters l d)
    (site : Site S) :
    ∃ d', Still d (l.settle ops site).1 d'
      ∧ (l.settle ops site).1.accepting = l.accepting :=
  still_settleFor hp l.waiters.length site h (Nat.le_refl _)

/-- All that was reserved has been consumed, and all flushes have been made. -/
theorem Still.open {d' : Dispatcher} (h : Still d l d') (hopen : d.stopRequested = false) :
    ∃ fates, Tended fates l.waiters l d' ∧ d'.ring.consumed = d'.ring.claimed
      ∧ d'.completed = d'.requested := by
  obtain ⟨fates, ⟨hwaits, hattended⟩ | ⟨hstop, -⟩⟩ := h.rest
  · refine ⟨fates, ⟨h.backend_eq, hwaits.phase_eq, hwaits.calm, ?_⟩, ?_, hwaits.served⟩
    · rw [h.waiters_eq]
      exact hattended
    · rw [hwaits.dry, hattended.reach_eq, hwaits.calm.tracks.length_eq]
  · rw [hopen] at hstop
    cases hstop

/-- A dispatcher that is to stop has finished, with nothing left behind. -/
theorem Still.gone {d' : Dispatcher} (h : Still d l d') (hstop : d.stopRequested = true) :
    d'.isFinished = true ∧ d'.abandoned = 0 := by
  obtain ⟨fates, ⟨hwaits, hattended⟩ | ⟨-, hgone⟩⟩ := h.rest
  · have hmissing := hwaits.missing (h.same.stopRequested_eq.trans hstop)
    unfold Ring.isCaughtUp at hmissing
    rw [hwaits.dry, hattended.reach_eq, hwaits.calm.tracks.length_eq] at hmissing
    simp at hmissing
  · exact ⟨hgone.isFinished, hgone.abandoned_eq⟩

end Logger

end LogPipeline
