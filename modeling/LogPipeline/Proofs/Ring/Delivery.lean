/-
Exact delivery: along every run of producers and the consumer on one
ring, whatever its capacity, the consumer is handed exactly what was
published, once each, in the order in which the sequences were taken,
and stops only in front of a sequence that is not resolved.

# Runs

A `Scene` is a ring with the record of its sequences and the list of what
was handed out. Its steps are the operations of the ring, each at any
time: producers take sequences, wait for their cells, publish or let go;
the consumer is taken, asks, releases, is given back; the ring is closed.
An operation that nobody can make at that point (publishing without the
cell, asking while an event is lent) changes nothing, so every list of
operations is a run.

Two steps are finer than the ring's own operations, for the sake of
producers that are overtaken between two looks at the ring: `arrive` and
`draw` are the two halves of reserving, between which the ring may be
closed; `forsake` is a producer that saw its cell taken, and then the
ring closed and without a consumer, while the cell may have come free
between the two.

# The theorem

`Scene.Inv` is `Ring.Tracks` and one equation: what was handed out is
what the record lists below the cursor. `inv_run` carries it along every
run; `handed_out_exactly` reads it off and adds what draining yields.
-/
import LogPipeline.Proofs.Ring.Consumer
import LogPipeline.Proofs.Ring.Traffic

namespace LogPipeline

-- ============================================================= scenes

/-- What happens at a ring. -/
inductive RingOp where
  | produce (op : ProducerOp)
  /-- A producer finds the ring open and sets about to take a sequence. -/
  | arrive
  /-- Such a producer takes the next sequence. -/
  | draw
  | take
  | untake
  | next
  | release
  | close

/-- A ring at work, with the record of its sequences. -/
structure Scene where
  traffic : Traffic
  /-- Producers that found the ring open and have not taken a sequence yet. -/
  arrived : Nat
  /-- The events that were handed out, in order. -/
  handed : List Ring.Lent

namespace Scene

/-- A new ring of a size. -/
def start (size : Nat) : Scene := ⟨⟨.ofSize size, []⟩, 0, []⟩

def ring (sc : Scene) : Ring := sc.traffic.ring

def fates (sc : Scene) : Fates := sc.traffic.fates

def withRing (r : Ring) (sc : Scene) : Scene := { sc with traffic := ⟨r, sc.fates⟩ }

/-- The first sequence that the consumer has not had yet. -/
def frontier (sc : Scene) : Nat := sc.ring.frontier

/-- The ring once the consumer has given back what is lent to it. -/
def atRest (sc : Scene) : Ring := if sc.ring.lent then sc.ring.release else sc.ring

/-- The consumer is there, and nothing is lent to it. -/
def mayAsk (sc : Scene) : Bool := sc.ring.taken && !sc.ring.lent

/-- The consumer asks for the next event. -/
def ask (sc : Scene) : Scene :=
  match sc.ring.tryNext with
  | (none, r) => sc.withRing r
  | (some e, r) => { sc.withRing r with handed := sc.handed ++ [e] }

def step (sc : Scene) : RingOp → Scene
  | .produce op => { sc with traffic := sc.traffic.produce op }
  | .arrive => if sc.ring.closed then sc else { sc with arrived := sc.arrived + 1 }
  | .draw =>
      if sc.arrived = 0 then sc
      else { sc with
        traffic := ⟨{ sc.ring with claimed := sc.ring.claimed + 1 }, sc.fates ++ [.reserved]⟩
        arrived := sc.arrived - 1 }
  | .take => sc.ring.take.elim sc fun r => sc.withRing r
  | .untake => if sc.mayAsk then sc.withRing sc.ring.untake else sc
  | .next => if sc.mayAsk then sc.ask else sc
  | .release => if sc.ring.lent then sc.withRing sc.ring.release else sc
  | .close => sc.withRing sc.ring.close

/-- A run: operations, one after another. -/
def run (ops : List RingOp) (sc : Scene) : Scene := ops.foldl step sc

-- ====================================================== the invariant

structure Inv (sc : Scene) : Prop where
  tracks : sc.ring.Tracks sc.fates
  handed_eq : sc.handed.map Ring.Lent.shown = sc.fates.eventsBelow sc.frontier
  /-- The end of the batch is told in the slot as it is told beside it. -/
  told : ∀ e ∈ sc.handed, e.slot.endOfBatch = e.endOfBatch

theorem inv_start (size : Nat) : (start size).Inv :=
  ⟨Ring.tracks_ofSize size, rfl, fun e he => by cases he⟩

variable {sc : Scene}

/-- Producers do not touch what was handed out. -/
theorem inv_of_kept {t : Traffic} (h : sc.Inv) (hk : Traffic.Kept sc.traffic t) :
    Inv { sc with traffic := t } := by
  refine ⟨hk.tracks, ?_, h.told⟩
  have hfr : frontier { sc with traffic := t } = sc.frontier :=
    Ring.frontier_congr hk.consumed_eq hk.lent_eq
  rw [hfr]
  exact h.handed_eq.trans (hk.eventsBelow_eq fun s hs => h.tracks.resolved_of_lt_frontier hs).symm

/-- Neither does what moves no cursor. -/
theorem inv_withRing {r : Ring} (h : sc.Inv) (ht : r.Tracks sc.fates)
    (hc : r.consumed = sc.ring.consumed) (hl : r.lent = sc.ring.lent) :
    (sc.withRing r).Inv := by
  refine ⟨ht, h.handed_eq.trans ?_, h.told⟩
  show _ = sc.fates.eventsBelow r.frontier
  rw [Ring.frontier_congr hc hl]
  rfl

/-- A sequence is taken by a producer that found the ring open before. -/
theorem inv_draw (h : sc.Inv) : (sc.step .draw).Inv := by
  simp only [step]
  split
  · exact h
  · refine ⟨h.tracks.draw rfl fun hc => (by cases hc), h.handed_eq.trans ?_, h.told⟩
    refine (Fates.eventsBelow_congr fun s hs => ?_).symm
    exact List.getElem?_append_left (Fates.lt_of_resolvedAt (h.tracks.resolved_of_lt_frontier hs))

/-- The consumer asks: what it gets is the next event of the record. -/
theorem inv_ask (h : sc.Inv) (hl : sc.ring.lent = false) : sc.ask.Inv := by
  have hfr : sc.frontier = sc.ring.consumed := Ring.frontier_of_not_lent hl
  have hev := h.handed_eq
  rw [hfr] at hev
  unfold ask
  split
  · next r hn =>
    obtain ⟨hp, -⟩ := Ring.tryNext_none h.tracks hn
    refine ⟨hp.tracks, hev.trans ?_, h.told⟩
    show _ = sc.fates.eventsBelow r.frontier
    rw [Ring.frontier_of_not_lent (Ring.lent_tryNext_none hl hn), hp.events_eq]
  · next e r hn =>
    obtain ⟨hp, hl', hseq, v, hv, hslot⟩ := Ring.tryNext_some h.tracks hl hn
    refine ⟨hp.tracks, ?_, ?_⟩
    · show (sc.handed ++ [e]).map Ring.Lent.shown
        = sc.fates.eventsBelow r.frontier
      rw [Ring.frontier_of_lent hl', Fates.eventsBelow_succ_published hv, hp.events_eq,
        List.map_append, hev, List.map_singleton, Ring.shown_eq hslot, hseq]
    · intro e' he'
      rcases List.mem_append.1 he' with hold | hnew
      · exact h.told e' hold
      · rw [List.mem_singleton.1 hnew, hslot]

theorem inv_release (h : sc.Inv) (hl : sc.ring.lent = true) :
    (sc.withRing sc.ring.release).Inv := by
  obtain ⟨v, hv, ht, -⟩ := Ring.release_lent h.tracks hl
  refine ⟨ht, h.handed_eq.trans ?_, h.told⟩
  show _ = sc.fates.eventsBelow sc.ring.release.frontier
  rw [Ring.frontier_release hl]
  rfl

/-- One operation keeps the invariant, whichever it is. -/
theorem inv_step (h : sc.Inv) (op : RingOp) : (sc.step op).Inv := by
  cases op with
  | produce op => exact inv_of_kept h (Traffic.kept_produce h.tracks op)
  | arrive =>
      simp only [step]
      split
      · exact h
      · exact ⟨h.tracks, h.handed_eq, h.told⟩
  | draw => exact inv_draw h
  | take =>
      simp only [step]
      cases ht : sc.ring.take with
      | none => exact h
      | some r =>
          refine inv_withRing h (h.tracks.take ht) ?_ ?_ <;>
            · unfold Ring.take at ht
              split at ht
              · cases ht
              · cases ht
                rfl
  | untake =>
      simp only [step]
      split
      · exact inv_withRing h h.tracks.untake rfl rfl
      · exact h
  | next =>
      simp only [step]
      split
      · next hm =>
        unfold mayAsk at hm
        rw [Bool.and_eq_true, Bool.not_eq_true'] at hm
        exact inv_ask h hm.2
      · exact h
  | release =>
      simp only [step]
      split
      · next hl => exact inv_release h hl
      · exact h
  | close => exact inv_withRing h h.tracks.close rfl rfl

/-- Every run keeps the invariant. -/
theorem inv_run (ops : List RingOp) (h : sc.Inv) : (sc.run ops).Inv := by
  induction ops generalizing sc with
  | nil => exact h
  | cons op rest ih => exact ih (inv_step h op)

-- ======================================================= what it gives

/-- The ring at rest stands at the frontier. -/
theorem Inv.atRest (h : sc.Inv) :
    sc.atRest.Tracks sc.fates ∧ sc.atRest.lent = false ∧ sc.atRest.consumed = sc.frontier := by
  unfold Scene.atRest frontier
  split
  · next hl =>
    obtain ⟨v, hv, ht, -⟩ := Ring.release_lent h.tracks hl
    exact ⟨ht, rfl, Ring.frontier_release hl⟩
  · next hl =>
    have hl' := Bool.eq_false_iff.2 hl
    exact ⟨h.tracks, hl', (Ring.frontier_of_not_lent hl').symm⟩

/-- What was handed out shows the event that was published under its number. -/
theorem Inv.shows (h : sc.Inv) {e : Ring.Lent} (he : e ∈ sc.handed) :
    ∃ v, sc.fates[e.sequence]? = some (.published v)
      ∧ e.slot = { EventSlot.ofValues v with endOfBatch := e.endOfBatch } := by
  have hmem : e.shown ∈ sc.fates.eventsBelow sc.frontier := by
    rw [← h.handed_eq]
    exact List.mem_map_of_mem he
  obtain ⟨-, v, hv, hslot⟩ := Fates.mem_eventsBelow hmem
  refine ⟨v, hv, ?_⟩
  rw [← hslot, ← h.told e he]

/-- Along every run the consumer is handed exactly the published events
below its frontier, each once, in the order of their sequences, each with
the fields that were published under that sequence. Nothing below the
frontier is unresolved, and draining goes on to the first sequence that
is. -/
theorem handed_out_exactly (size : Nat) (ops : List RingOp) :
    let sc := (start size).run ops
    sc.handed.map Ring.Lent.shown = sc.fates.eventsBelow sc.frontier
      ∧ sc.handed.Pairwise (fun a b => a.sequence < b.sequence)
      ∧ (∀ e ∈ sc.handed, ∃ v, sc.fates[e.sequence]? = some (.published v)
          ∧ e.slot = { EventSlot.ofValues v with endOfBatch := e.endOfBatch })
      ∧ (∀ s < sc.frontier, sc.fates.resolvedAt s = true)
      ∧ sc.atRest.drain.2.consumed = sc.fates.reach
      ∧ (sc.handed ++ sc.atRest.drain.1).map Ring.Lent.shown
          = sc.fates.eventsBelow sc.fates.reach := by
  intro sc
  have h : sc.Inv := inv_run ops (inv_start size)
  obtain ⟨ht, hl, hc⟩ := h.atRest
  obtain ⟨-, hend, hevents⟩ := Ring.drainFor_events sc.atRest.backlog ht hl (Nat.le_refl _)
  refine ⟨h.handed_eq, ?_, fun e he => h.shows he,
    fun s hs => h.tracks.resolved_of_lt_frontier hs, hend, ?_⟩
  · have hpw := Fates.eventsBelow_pairwise sc.fates sc.frontier
    rw [← h.handed_eq, List.pairwise_map] at hpw
    exact hpw
  · rw [List.map_append, h.handed_eq, ← hc]
    exact hevents

end Scene

end LogPipeline
