/-
Where batches end. The consumer marks an event as the last of its batch
when it finds no event at the next sequence (`tryNext_mark`). It looks at
that one sequence and no further, and a dropped sequence carries no event;
so the mark is exact for events that follow each other without a gap, and
comes early in front of a dropped sequence with events behind it.

# The theorem

`drain_sorted` and `mem_drain` say what a drain hands out: the published
events from the cursor to the reach, in order. `drainFor_marks` says how
each is marked. Put together (`batch_marks`): the marked events are the
last one and those in front of a dropped sequence, and the last one alone
is marked just if no sequence was dropped between two events.
-/
import LogPipeline.Proofs.Ring.Delivery
import LogPipeline.Proofs.Samples

namespace LogPipeline

namespace Fates

theorem mem_eventsBelow_of_published {fates : Fates} {n s : Nat} {v : EventValues}
    (hs : s < n) (hv : fates[s]? = some (.published v)) :
    (s, .ofValues v) ∈ fates.eventsBelow n := by
  refine List.mem_filterMap.2 ⟨s, List.mem_range.2 hs, ?_⟩
  unfold eventAt
  rw [hv]
  rfl

/-- An event was published under the sequence. -/
def publishedAt (fates : Fates) (s : Nat) : Bool := (fates[s]?.bind Fate.event?).isSome

theorem publishedAt_iff {fates : Fates} {s : Nat} :
    fates.publishedAt s = true ↔ ∃ v, fates[s]? = some (.published v) := by
  unfold publishedAt
  rcases fates[s]? with _ | f
  · simp
  · cases f <;> simp [Fate.event?]

/-- A resolved sequence without an event was dropped. -/
theorem dropped_of_not_publishedAt {fates : Fates} {s : Nat} (hres : fates.resolvedAt s = true)
    (hp : fates.publishedAt s = false) : fates[s]? = some .dropped := by
  obtain ⟨f, hf, hr⟩ := resolvedAt_iff.1 hres
  cases f with
  | published v =>
      rw [publishedAt_iff.2 ⟨v, hf⟩] at hp
      cases hp
  | dropped => exact hf
  | _ => cases hr

theorem not_publishedAt_of_dropped {fates : Fates} {s : Nat} (h : fates[s]? = some .dropped) :
    fates.publishedAt s = false := by
  unfold publishedAt
  rw [h]
  rfl

theorem resolvedAt_of_publishedAt {fates : Fates} {s : Nat} (h : fates.publishedAt s = true) :
    fates.resolvedAt s = true := by
  obtain ⟨v, hv⟩ := publishedAt_iff.1 h
  exact resolvedAt_eq hv

end Fates

-- =========================================================== the mark

namespace Ring

variable {r r' : Ring} {fates : Fates}

/-- From the cursor on, the ring shows an event just where one was published. -/
theorem Tracks.hasEventAt_eq (h : r.Tracks fates) {s : Nat} (hs : r.consumed ≤ s) :
    r.hasEventAt s = fates.publishedAt s := by
  unfold hasEventAt
  cases hp : fates.publishedAt s with
  | true =>
      obtain ⟨v, hv⟩ := Fates.publishedAt_iff.1 hp
      rw [h.stamped s hs (Fates.resolvedAt_eq hv), (h.shown s _ hs hv).not_isVoid]
      rfl
  | false =>
      cases hres : r.isResolved s with
      | false => rfl
      | true =>
          have hdropped := Fates.dropped_of_not_publishedAt (h.sound s hres) hp
          have hvoid : (r.slotAt s).isVoid = true := h.shown s _ hs hdropped
          rw [hvoid]
          rfl

/-- An event is marked when nothing was published under the next sequence. -/
theorem tryNext_mark {e : Lent} (h : r.Tracks fates) (hn : r.tryNext = (some e, r')) :
    e.endOfBatch = !fates.publishedAt (e.sequence + 1) := by
  unfold tryNext at hn
  simp only at hn
  have hp := passed_skipVoid r.backlog h
  split at hn
  · cases hn
    exact congrArg (!·) (hp.tracks.hasEventAt_eq (Nat.le_succ _))
  · cases hn

/-- All that a drain hands out is marked so. -/
theorem drainFor_marks (fuel : Nat) (h : r.Tracks fates) (hl : r.lent = false) :
    ∀ e ∈ (drainFor fuel r).1, e.endOfBatch = !fates.publishedAt (e.sequence + 1) := by
  induction fuel generalizing r with
  | zero => exact fun e he => by cases he
  | succ fuel ih =>
      intro e he
      unfold drainFor at he
      split at he
      · cases he
      · next e' r' hn =>
        obtain ⟨hp, hl', -⟩ := tryNext_some h hl hn
        obtain ⟨-, -, ht, -⟩ := release_lent hp.tracks hl'
        rcases List.mem_cons.1 he with rfl | hrest
        · exact tryNext_mark h hn
        · exact ih ht rfl e hrest

-- ====================================================== what is drained

/-- No sequence was dropped between two of the events. -/
def Gapless (fates : Fates) (es : List Lent) : Prop :=
  ∀ a ∈ es, ∀ b ∈ es, ∀ s, a.sequence < s → s < b.sequence → fates[s]? ≠ some .dropped

section

variable (h : r.Tracks fates) (hl : r.lent = false)
include h hl

/-- A drain hands out events in the order of their sequences. -/
theorem drain_sorted : r.drain.1.Pairwise fun a b => a.sequence < b.sequence := by
  obtain ⟨-, -, hevents⟩ := drainFor_events r.backlog h hl (Nat.le_refl _)
  have hpw := Fates.eventsBelow_pairwise fates fates.reach
  rw [← hevents, List.pairwise_append, List.pairwise_map] at hpw
  exact hpw.2.1

/-- A drain hands out what was published from the cursor to the reach. -/
theorem mem_drain {s : Nat} : (∃ e ∈ r.drain.1, e.sequence = s)
    ↔ r.consumed ≤ s ∧ s < fates.reach ∧ fates.publishedAt s = true := by
  obtain ⟨-, -, hevents⟩ := drainFor_events r.backlog h hl (Nat.le_refl _)
  have hpw := Fates.eventsBelow_pairwise fates fates.reach
  rw [← hevents, List.pairwise_append] at hpw
  constructor
  · rintro ⟨e, he, rfl⟩
    have hmem : e.shown ∈ r.drain.1.map Lent.shown := List.mem_map_of_mem he
    obtain ⟨hlt, v, hv, -⟩ : e.sequence < fates.reach ∧ ∃ v,
        fates[e.sequence]? = some (.published v) ∧ _ :=
      Fates.mem_eventsBelow (hevents ▸ List.mem_append_right _ hmem)
    refine ⟨Nat.le_of_not_lt fun hc => ?_, hlt, Fates.publishedAt_iff.2 ⟨v, hv⟩⟩
    -- below the cursor it would be listed twice
    have hlisted := Fates.mem_eventsBelow_of_published hc hv
    exact Nat.lt_irrefl e.sequence (hpw.2.2 _ hlisted _ hmem)
  · rintro ⟨hle, hlt, hp⟩
    obtain ⟨v, hv⟩ := Fates.publishedAt_iff.1 hp
    have hmem := Fates.mem_eventsBelow_of_published hlt hv
    rw [← hevents] at hmem
    rcases List.mem_append.1 hmem with hbelow | hdrained
    · have := (Fates.mem_eventsBelow hbelow).1
      omega
    · obtain ⟨e, he, heq⟩ := List.mem_map.1 hdrained
      exact ⟨e, he, congrArg Prod.fst heq⟩

/-- The last event of a drain is the one with the greatest sequence. -/
theorem getLast?_drain_iff {e : Lent} (he : e ∈ r.drain.1) :
    r.drain.1.getLast? = some e ↔ ∀ b ∈ r.drain.1, b.sequence ≤ e.sequence := by
  have hpw := drain_sorted h hl
  obtain ⟨init, last, hes⟩ : ∃ init last, r.drain.1 = init ++ [last] :=
    ⟨_, _, (List.dropLast_concat_getLast (List.ne_nil_of_mem he)).symm⟩
  rw [hes] at hpw he ⊢
  rw [List.getLast?_concat, Option.some.injEq]
  have hbelow : ∀ b ∈ init, b.sequence < last.sequence := fun b hb =>
    (List.pairwise_append.1 hpw).2.2 b hb last (List.mem_singleton_self last)
  constructor
  · rintro rfl b hb
    rcases List.mem_append.1 hb with hb | hb
    · exact Nat.le_of_lt (hbelow b hb)
    · exact Nat.le_of_eq (congrArg _ (List.mem_singleton.1 hb))
  · intro hmax
    rcases List.mem_append.1 he with he | he
    · have := hmax last (List.mem_append_right _ (List.mem_singleton_self last))
      exact absurd (hbelow e he) (Nat.not_lt.2 this)
    · exact (List.mem_singleton.1 he).symm

/-- An event that is not the last of a drain has the next sequence below
the reach, so that one is published or dropped. -/
theorem resolvedAt_succ_of_not_last {a b : Lent} (hb : b ∈ r.drain.1)
    (hab : a.sequence < b.sequence) : fates.resolvedAt (a.sequence + 1) = true := by
  obtain ⟨-, hlt, -⟩ := (mem_drain h hl).1 ⟨b, hb, rfl⟩
  exact Fates.resolvedAt_of_lt_reach (by omega)

/-- The marked events are the last one and those in front of a dropped sequence. -/
theorem drain_mark_iff {e : Lent} (he : e ∈ r.drain.1) :
    e.endOfBatch = true
      ↔ r.drain.1.getLast? = some e ∨ fates[e.sequence + 1]? = some .dropped := by
  obtain ⟨hle, hlt, -⟩ := (mem_drain h hl).1 ⟨e, he, rfl⟩
  rw [drainFor_marks r.backlog h hl e he, Bool.not_eq_true', getLast?_drain_iff h hl he]
  constructor
  · intro hunpublished
    by_cases hlast : ∀ b ∈ r.drain.1, b.sequence ≤ e.sequence
    · exact .inl hlast
    · obtain ⟨b, hb, hlater⟩ : ∃ b ∈ r.drain.1, e.sequence < b.sequence := by
        simpa using hlast
      exact .inr (Fates.dropped_of_not_publishedAt
        (resolvedAt_succ_of_not_last h hl hb hlater) hunpublished)
  · rintro (hlast | hdropped)
    · refine Bool.eq_false_iff.2 fun hp => ?_
      have hne : e.sequence + 1 ≠ fates.reach := fun hc => by
        have := Fates.resolvedAt_of_publishedAt hp
        rw [hc, Fates.not_resolvedAt_reach] at this
        cases this
      obtain ⟨b, hb, hseq⟩ := (mem_drain h hl).2
        ⟨(by omega : r.consumed ≤ e.sequence + 1), by omega, hp⟩
      have := hlast b hb
      omega
    · exact Fates.not_publishedAt_of_dropped hdropped

/-- Where the last event alone is marked, events follow each other up to
the last one, sequence by sequence. -/
theorem drain_consecutive
    (hexact : ∀ e ∈ r.drain.1, e.endOfBatch = true ↔ r.drain.1.getLast? = some e)
    {a b : Lent} (ha : a ∈ r.drain.1) (hb : b ∈ r.drain.1) (n : Nat)
    (hn : a.sequence + n ≤ b.sequence) : ∃ e ∈ r.drain.1, e.sequence = a.sequence + n := by
  induction n with
  | zero => exact ⟨a, ha, rfl⟩
  | succ n ih =>
      obtain ⟨e, he, hseq⟩ := ih (by omega)
      have hnotLast : ¬ e.endOfBatch = true := by
        rw [hexact e he, getLast?_drain_iff h hl he]
        intro hmax
        have := hmax b hb
        omega
      have hp : fates.publishedAt (e.sequence + 1) = true := by
        rw [drainFor_marks r.backlog h hl e he] at hnotLast
        simpa using hnotLast
      obtain ⟨hle, -, -⟩ := (mem_drain h hl).1 ⟨e, he, rfl⟩
      obtain ⟨-, hlt, -⟩ := (mem_drain h hl).1 ⟨b, hb, rfl⟩
      have hnext := (mem_drain h hl).2 ⟨(by omega : r.consumed ≤ e.sequence + 1), by omega, hp⟩
      rwa [hseq] at hnext

/-- The last event alone is marked just if nothing was dropped between events. -/
theorem drain_exact_iff :
    (∀ e ∈ r.drain.1, e.endOfBatch = true ↔ r.drain.1.getLast? = some e)
      ↔ Gapless fates r.drain.1 := by
  constructor
  · intro hexact a ha b hb s has hsb hdropped
    obtain ⟨e, he, hseq⟩ := drain_consecutive h hl hexact ha hb (s - a.sequence) (by omega)
    have hs : e.sequence = s := by omega
    obtain ⟨-, -, hp⟩ := (mem_drain h hl).1 ⟨e, he, hs⟩
    rw [Fates.not_publishedAt_of_dropped hdropped] at hp
    cases hp
  · intro hgapless e he
    rw [drain_mark_iff h hl he]
    refine ⟨fun hmark => hmark.elim id fun hdropped => ?_, .inl⟩
    rw [getLast?_drain_iff h hl he]
    intro b hb
    refine Nat.le_of_not_lt fun hlater => ?_
    -- the next sequence is `b`'s own, or lies between the two
    rcases Nat.lt_or_eq_of_le (Nat.succ_le_of_lt hlater) with hbetween | hnext
    · exact hgapless e he b hb _ (Nat.lt_succ_self _) hbetween hdropped
    · obtain ⟨-, -, hp⟩ := (mem_drain h hl).1 ⟨b, hb, hnext.symm⟩
      rw [Fates.not_publishedAt_of_dropped hdropped] at hp
      cases hp

end

end Ring

-- ============================================================ the marks

namespace Scene

/-- After every run, a drain marks the last event that it hands out, and
besides it the events in front of a dropped sequence; so it marks the last
one alone just if nothing was dropped between two of its events. -/
theorem batch_marks (size : Nat) (ops : List RingOp) :
    let sc := (start size).run ops
    let es := sc.atRest.drain.1
    (∀ e ∈ es, e.endOfBatch = true
        ↔ es.getLast? = some e ∨ sc.fates[e.sequence + 1]? = some .dropped)
      ∧ ((∀ e ∈ es, e.endOfBatch = true ↔ es.getLast? = some e)
        ↔ Ring.Gapless sc.fates es) := by
  intro sc es
  have h : sc.Inv := inv_run ops (inv_start size)
  obtain ⟨ht, hl, -⟩ := h.atRest
  exact ⟨fun e he => Ring.drain_mark_iff ht hl he, Ring.drain_exact_iff ht hl⟩

/-- Two events with a dropped sequence between them. -/
def gapOps : List RingOp :=
  [.take, .produce .claim, .produce (.publish 0 (.ofText "a")), .produce .claim,
    .produce (.abandon 1), .produce .claim, .produce (.publish 2 (.ofText "b"))]

/-- Marking the last event alone is too much to ask: the first of two
events around a dropped sequence is marked as well. -/
theorem gap_marked :
    ¬ ∀ (size : Nat) (ops : List RingOp),
      let es := ((start size).run ops).atRest.drain.1
      ∀ e ∈ es, e.endOfBatch = true ↔ es.getLast? = some e := by
  intro hexact
  have hboth : ¬ ∀ e ∈ ((start 4).run gapOps).atRest.drain.1,
      e.endOfBatch = true ↔ ((start 4).run gapOps).atRest.drain.1.getLast? = some e := by
    decide +kernel
  exact hboth (hexact 4 gapOps)

end Scene

end LogPipeline
