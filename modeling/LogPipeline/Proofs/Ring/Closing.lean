/-
Closing a ring. A closed ring takes nothing in and loses nothing, as long
as its consumer stays: who asks for a sequence is refused, who holds a
cell may still publish or let go, and who took a sequence before it saw
the ring closed leaves its cell void once that is free. So no sequence
stays unresolved, and the consumer that goes on asking gets to the end.

# The end is reached

Whether the consumer gets to the end is a matter of the whole future, so
it is said of an infinite schedule. `Fair` is what the parties owe: the
consumer stays and asks again and again, who holds a cell publishes or
lets go some time, who waits for a cell asks for it again. The proof is
an induction on the sequence that the consumer is to get past
(`Fair.passes`). A consumer that stands at a sequence has freed its cell,
as there are two cells at least (`Inv.isFree`); so who waits there is
answered, who was granted the cell resolves it, and the next question
gets past it.
-/
import LogPipeline.Proofs.Ring.Batches
import LogPipeline.Proofs.Ring.Entries

namespace LogPipeline

-- ======================================================== closed rings

namespace Ring

variable {r : Ring}

theorem reserve_of_closed (h : r.closed = true) : r.reserve = none := if_pos h

/-- A closed ring refuses a claim, with the reason that it was stopped. -/
theorem claim_of_closed (h : r.closed = true) : r.claim = (.error .stopped, r) := if_pos h

/-- A closed ring grants no cell. -/
theorem confirm_of_closed (h : r.closed = true) (s : Nat) :
    (r.confirm s).1 = .refused ∨ (r.confirm s).1 = .waiting := by
  unfold confirm
  rw [h]
  split
  · exact .inl rfl
  · split
    · exact .inl rfl
    · exact .inr rfl

end Ring

namespace Scene

variable {sc : Scene} {s : Nat} {f : Fate}

-- ============================================================ whole runs

theorem run_append (ops later : List RingOp) (sc : Scene) :
    sc.run (ops ++ later) = (sc.run ops).run later :=
  List.foldl_append

/-- Along the whole run a closed ring has its consumer. -/
def Attended (ops : List RingOp) (sc : Scene) : Prop :=
  ∀ earlier, earlier <+: ops → (sc.run earlier).Watched

theorem settled_run (ops : List RingOp) (hs : sc.fates[s]? = some f) (hf : f.isResolved = true) :
    (sc.run ops).fates[s]? = some f := by
  induction ops generalizing sc with
  | nil => exact hs
  | cons op rest ih => exact ih (settled_step op hs hf)

/-- As long as a closed ring has its consumer no sequence is forsaken. -/
theorem noneForsaken_run {ops : List RingOp} (hattended : Attended ops sc)
    (h : sc.NoneForsaken) : (sc.run ops).NoneForsaken := by
  induction ops generalizing sc with
  | nil => exact h
  | cons op rest ih =>
      have hw : sc.Watched := hattended [] (List.nil_prefix)
      refine ih (fun earlier hpre => ?_) (noneForsaken_step hw h op)
      exact hattended (op :: earlier) (List.cons_prefix_cons.2 ⟨rfl, hpre⟩)

/-- A sequence that is mute when the ring is closed stays mute. -/
theorem muteAt_run (ops : List RingOp) (hinv : sc.Inv) (hclosed : sc.ring.closed = true)
    (h : sc.traffic.MuteAt s) : (sc.run ops).traffic.MuteAt s := by
  induction ops generalizing sc with
  | nil => exact h
  | cons op rest ih =>
      exact ih (inv_step hinv op) (closed_step hinv hclosed op) (muteAt_step hclosed h op)

/-- What is published on a closed ring was published or granted when it
was closed. -/
theorem published_before {later : List RingOp} {v : EventValues} (hinv : sc.Inv)
    (hclosed : sc.ring.closed = true) (hs : (sc.run later).fates[s]? = some (.published v)) :
    sc.fates[s]? = some (.published v) ∨ sc.fates[s]? = some .granted := by
  cases hf : sc.fates[s]? with
  | none =>
      have hmute : sc.traffic.MuteAt s := fun g hg => by
        have hg' : sc.fates[s]? = some g := hg
        rw [hf] at hg'
        cases hg'
      cases muteAt_run later hinv hclosed hmute _ hs
  | some f =>
      cases hm : f.isMute with
      | true =>
          have hmute : sc.traffic.MuteAt s := fun g hg => by
            have hg' : sc.fates[s]? = some g := hg
            rw [hf] at hg'
            cases hg'
            exact hm
          cases muteAt_run later hinv hclosed hmute _ hs
      | false =>
          cases f with
          | granted => exact .inr rfl
          | published v' =>
              rw [settled_run later hf rfl] at hs
              exact .inl hs
          | _ => cases hm

/-- A run publishes one event with each of its publish operations. -/
theorem length_published_run (ops : List RingOp) (sc : Scene) :
    (sc.run ops).fates.published.length = sc.fates.published.length + publishes ops sc := by
  induction ops generalizing sc with
  | nil => rfl
  | cons op rest ih =>
      show ((sc.step op).run rest).fates.published.length = _
      rw [ih, (entered_step sc op).length_published]
      exact Nat.add_assoc _ _ _

/-- On a new ring nothing has been published yet. -/
theorem publishes_eq (size : Nat) (ops : List RingOp) :
    publishes ops (start size) = ((start size).run ops).fates.published.length := by
  rw [length_published_run]
  exact (Nat.zero_add _).symm

-- ============================================================ the end

/-- An event below the frontier was handed out. -/
theorem Inv.handed_of_published (h : sc.Inv) {v : EventValues}
    (hs : sc.fates[s]? = some (.published v)) (hlt : s < sc.frontier) :
    ∃ e ∈ sc.handed, e.sequence = s
      ∧ e.slot = { EventSlot.ofValues v with endOfBatch := e.endOfBatch } := by
  have hmem := Fates.mem_eventsBelow_of_published hlt hs
  rw [← h.handed_eq] at hmem
  obtain ⟨e, he, heq⟩ := List.mem_map.1 hmem
  have hseq : e.sequence = s := congrArg Prod.fst heq
  obtain ⟨v', hv', hslot⟩ := h.shows he
  rw [hseq, hs] at hv'
  cases hv'
  exact ⟨e, he, hseq, hslot⟩

/-- A sequence that was given up is handed out under no number. -/
theorem Inv.not_handed_of_dropped (h : sc.Inv) (hs : sc.fates[s]? = some .dropped) :
    ∀ e ∈ sc.handed, e.sequence ≠ s := by
  intro e he hseq
  obtain ⟨v, hv, -⟩ := h.shows he
  rw [hseq, hs] at hv
  cases hv

/-- Where all sequences are resolved, the events below the end are all
that was published. -/
theorem length_eventsBelow_of_le {fates : Fates} {n : Nat} (hn : fates.length ≤ n) :
    (fates.eventsBelow n).length = fates.published.length := by
  have hmute : ∀ s f, n ≤ s → fates[s]? = some f → f.isMute = true := fun s f hs hf =>
    absurd (Fates.lt_of_getElem? hf) (by omega)
  have hmap := congrArg List.length (Fates.map_eventsBelow_of_mute hmute)
  rwa [List.length_map, List.length_map] at hmap

/-- Where all sequences are resolved, a drain gets to the end, and with it
all that was published has been handed out. -/
theorem Inv.drained (h : sc.Inv) (hall : ∀ s < sc.ring.claimed, sc.fates.resolvedAt s = true) :
    let drained := sc.atRest.drain
    drained.2.isCaughtUp = true ∧ drained.2.backlog = 0
      ∧ (sc.handed ++ drained.1).length = sc.fates.published.length := by
  intro drained
  obtain ⟨ht, hl, hc⟩ := h.atRest
  obtain ⟨ht', hend, hevents⟩ := Ring.drainFor_events sc.atRest.backlog ht hl (Nat.le_refl _)
  have hlength : sc.fates.length = drained.2.claimed := ht'.length_eq
  have hreach : sc.fates.length ≤ sc.fates.reach := by
    refine Nat.le_of_not_lt fun hlt => ?_
    have := hall _ (h.tracks.length_eq ▸ hlt)
    rw [Fates.not_resolvedAt_reach] at this
    cases this
  have hconsumed : drained.2.consumed = sc.fates.reach := hend
  refine ⟨?_, ?_, ?_⟩
  · unfold Ring.isCaughtUp
    exact decide_eq_true (by omega)
  · unfold Ring.backlog
    omega
  · have hlist : (sc.handed ++ drained.1).map Ring.Lent.shown
        = sc.fates.eventsBelow sc.fates.reach := by
      rw [List.map_append, h.handed_eq, ← hc]
      exact hevents
    rw [← List.length_map (f := Ring.Lent.shown), hlist, length_eventsBelow_of_le hreach]

/-- A consumer that has had all sequences is at the end, and all that was
published has been handed out. -/
theorem Inv.caught_up (h : sc.Inv) (hend : sc.fates.length ≤ sc.frontier) :
    sc.atRest.isCaughtUp = true ∧ sc.atRest.backlog = 0
      ∧ sc.handed.length = sc.fates.published.length := by
  obtain ⟨ht, -, hc⟩ := h.atRest
  have hlength := ht.length_eq
  refine ⟨decide_eq_true (by omega), ?_, ?_⟩
  · unfold Ring.backlog
    omega
  · rw [← List.length_map (f := Ring.Lent.shown), h.handed_eq, length_eventsBelow_of_le hend]

-- ========================================================= the future

/-- A run that goes on for ever, after its first `n` operations. -/
def along (later : Nat → RingOp) (sc : Scene) (n : Nat) : Scene :=
  sc.run ((List.range n).map later)

theorem along_succ (later : Nat → RingOp) (sc : Scene) (n : Nat) :
    sc.along later (n + 1) = (sc.along later n).step (later n) := by
  unfold along
  rw [List.range_succ, List.map_append, run_append]
  rfl

/-- What the parties at a ring owe for ever. -/
structure Fair (sc : Scene) (later : Nat → RingOp) : Prop where
  /-- The consumer of a closed ring stays. -/
  attended : ∀ n, (sc.along later n).Watched
  /-- The consumer asks again and again, with nothing lent to it. -/
  asks : ∀ n, ∃ m, n ≤ m ∧ later m = .next ∧ (sc.along later m).mayAsk = true
  /-- Who holds a cell publishes or lets go. -/
  settles : ∀ n s, (sc.along later n).fates[s]? = some .granted → ∃ m, n ≤ m ∧
    (later m = .produce (.abandon s) ∨ ∃ v, later m = .produce (.publish s v))
  /-- Who waits for a cell asks for it again. -/
  retries : ∀ n s, (sc.along later n).fates[s]? = some .reserved →
    ∃ m, n ≤ m ∧ later m = .produce (.confirm s)

/-- A sequence whose producer holds the cell or is done with it. -/
def Assigned (sc : Scene) (s : Nat) : Prop :=
  sc.fates[s]? = some .granted ∨ sc.fates.resolvedAt s = true

theorem resolvedAt_step (h : sc.fates.resolvedAt s = true) (op : RingOp) :
    (sc.step op).fates.resolvedAt s = true := by
  obtain ⟨f, hf, hr⟩ := Fates.resolvedAt_iff.1 h
  exact Fates.resolvedAt_iff.2 ⟨f, settled_step op hf hr, hr⟩

theorem assigned_step (h : sc.Assigned s) (op : RingOp) : (sc.step op).Assigned s := by
  rcases h with hs | hres
  · obtain ⟨g, hg, rfl | hturn⟩ := (entered_step sc op).turns hs
    · exact .inl hg
    · refine .inr (Fates.resolvedAt_iff.2 ⟨g, hg, ?_⟩)
      cases hturn with
      | published v => rfl
      | abandoned => rfl
  · exact .inr (resolvedAt_step hres op)

/-- A sequence waits for its cell until it is told. -/
theorem reserved_step (hw : sc.Watched) (h : sc.fates[s]? = some .reserved) (op : RingOp) :
    (sc.step op).fates[s]? = some .reserved ∨ (sc.step op).Assigned s := by
  obtain ⟨g, hg, rfl | hturn⟩ := (entered_step sc op).turns h
  · exact .inl hg
  · cases hturn with
    | granted _ => exact .inr (.inl hg)
    | refused => exact .inr (.inr (Fates.resolvedAt_iff.2 ⟨_, hg, rfl⟩))
    | forsaken hgone => exact absurd hw hgone

/-- The cell of the sequence at the frontier is free. -/
theorem Inv.isFree (h : sc.Inv) (hs : s ≤ sc.frontier) : sc.ring.isFree s = true := by
  have htwo := h.tracks.two_le
  have hnear : sc.frontier ≤ sc.ring.consumed + 1 := by
    show sc.ring.consumed + (if sc.ring.lent then 1 else 0) ≤ _
    split <;> omega
  exact decide_eq_true (by omega)

/-- Who asks for a free cell is answered. -/
theorem assigned_confirm (hfree : sc.ring.isFree s = true)
    (hs : sc.fates[s]? = some .reserved) : (sc.step (.produce (.confirm s))).Assigned s := by
  have hstep : (sc.step (.produce (.confirm s))).fates = (sc.traffic.confirm s).fates :=
    congrArg Traffic.fates (Traffic.produce_confirm hs)
  have hfree' : sc.traffic.ring.isFree s = true := hfree
  unfold Assigned
  rw [hstep]
  unfold Traffic.confirm Ring.confirm
  cases hclosed : sc.traffic.ring.closed with
  | false =>
      simp only [hfree', if_true, Bool.false_eq_true, if_false]
      exact .inl (Fates.getElem?_set_self hs _)
  | true =>
      simp only [hfree', if_true]
      exact .inr (Fates.resolvedAt_iff.2 ⟨_, Fates.getElem?_set_self hs _, rfl⟩)

/-- Who holds a cell and publishes or lets go is done with it. -/
theorem resolvedAt_settle (hs : sc.fates[s]? = some .granted) {op : RingOp}
    (hop : op = .produce (.abandon s) ∨ ∃ v, op = .produce (.publish s v)) :
    (sc.step op).fates.resolvedAt s = true := by
  rcases hop with rfl | ⟨v, rfl⟩
  · exact Fates.resolvedAt_iff.2 ⟨_, fates_abandon hs, rfl⟩
  · exact Fates.resolvedAt_iff.2 ⟨_, fates_publish hs v, rfl⟩

section

variable {later : Nat → RingOp} {n m : Nat}

theorem inv_along (later : Nat → RingOp) (h : sc.Inv) (n : Nat) : (sc.along later n).Inv :=
  inv_run _ h

/-- What every operation keeps holds from then on. -/
theorem along_mono (later : Nat → RingOp) {P : Scene → Prop}
    (hstep : ∀ k, P (sc.along later k) → P ((sc.along later k).step (later k)))
    (hnm : n ≤ m) (h : P (sc.along later n)) : P (sc.along later m) := by
  induction hnm with
  | refl => exact h
  | step _ ih =>
      rw [along_succ]
      exact hstep _ ih

theorem frontier_along (h : sc.Inv) (hnm : n ≤ m) :
    (sc.along later n).frontier ≤ (sc.along later m).frontier :=
  along_mono later (P := fun sc' => (sc.along later n).frontier ≤ sc'.frontier)
    (fun k hk => Nat.le_trans hk (frontier_le_step (inv_along later h k) _)) hnm (Nat.le_refl _)

theorem resolvedAt_along (hnm : n ≤ m) (h : (sc.along later n).fates.resolvedAt s = true) :
    (sc.along later m).fates.resolvedAt s = true :=
  along_mono later (P := fun sc' => sc'.fates.resolvedAt s = true)
    (fun _ hk => resolvedAt_step hk _) hnm h

theorem length_along (hnm : n ≤ m) :
    (sc.along later n).fates.length ≤ (sc.along later m).fates.length :=
  along_mono later (P := fun sc' => (sc.along later n).fates.length ≤ sc'.fates.length)
    (fun _ hk => Nat.le_trans hk (entered_step _ _).length_le) hnm (Nat.le_refl _)

/-- Once the ring is closed and nobody is on the way, no sequence is added. -/
theorem length_along_of_closed (h : sc.Inv) (hclosed : (sc.along later n).ring.closed = true)
    (harrived : (sc.along later n).arrived = 0) (hnm : n ≤ m) :
    (sc.along later m).fates.length = (sc.along later n).fates.length := by
  have hkept := along_mono later (P := fun sc' => sc'.ring.closed = true ∧ sc'.arrived = 0
      ∧ sc'.fates.length = (sc.along later n).fates.length)
    (fun k ⟨hc, ha, hlen⟩ => ⟨closed_step (inv_along later h k) hc _, arrived_step hc ha _,
      ((entered_step _ _).length_eq hc ha).trans hlen⟩) hnm ⟨hclosed, harrived, rfl⟩
  exact hkept.2.2

-- =============================================== getting past a sequence

variable (hfair : sc.Fair later)
include hfair

/-- A cell that is held is published into or let go of. -/
theorem Fair.resolves (h : (sc.along later n).Assigned s) :
    ∃ m, n ≤ m ∧ (sc.along later m).fates.resolvedAt s = true := by
  rcases h with hs | hres
  · obtain ⟨m, hnm, hop⟩ := hfair.settles n s hs
    have hassigned : (sc.along later m).Assigned s :=
      along_mono later (P := (Assigned · s)) (fun _ hk => assigned_step hk _) hnm (.inl hs)
    rcases hassigned with hs' | hres
    · refine ⟨m + 1, Nat.le_succ_of_le hnm, ?_⟩
      rw [along_succ]
      exact resolvedAt_settle hs' hop
    · exact ⟨m, hnm, hres⟩
  · exact ⟨n, Nat.le_refl n, hres⟩

/-- Who waits at the frontier gets an answer. -/
theorem Fair.assigns (hinv : sc.Inv) (hs : (sc.along later n).fates[s]? = some .reserved)
    (hfr : s ≤ (sc.along later n).frontier) :
    ∃ m, n ≤ m ∧ (sc.along later m).Assigned s := by
  obtain ⟨m, hnm, hop⟩ := hfair.retries n s hs
  have hstands : (sc.along later m).fates[s]? = some .reserved
      ∨ (sc.along later m).Assigned s := by
    refine along_mono later (P := fun sc' => sc'.fates[s]? = some .reserved ∨ sc'.Assigned s)
      (fun k hk => ?_) hnm (.inl hs)
    rcases hk with hk | hk
    · exact reserved_step (hfair.attended k) hk _
    · exact .inr (assigned_step hk _)
  rcases hstands with hs' | hassigned
  · have hfree := (inv_along later hinv m).isFree
      (Nat.le_trans hfr (frontier_along hinv hnm))
    refine ⟨m + 1, Nat.le_succ_of_le hnm, ?_⟩
    rw [along_succ, hop]
    exact assigned_confirm hfree hs'
  · exact ⟨m, hnm, hassigned⟩

/-- No sequence is forsaken along a fair run. -/
theorem Fair.noneForsaken (hnone : sc.NoneForsaken) (n : Nat) :
    (sc.along later n).NoneForsaken :=
  along_mono later (P := NoneForsaken) (fun k hk => noneForsaken_step (hfair.attended k) hk _)
    (Nat.zero_le n) hnone

/-- A sequence at the frontier is resolved some time. -/
theorem Fair.resolves_frontier (hinv : sc.Inv) (hnone : sc.NoneForsaken)
    (hlt : s < (sc.along later n).fates.length) (hfr : s ≤ (sc.along later n).frontier) :
    ∃ m, n ≤ m ∧ (sc.along later m).fates.resolvedAt s = true := by
  have hs := List.getElem?_eq_getElem hlt
  cases hf : (sc.along later n).fates[s] with
  | reserved =>
      rw [hf] at hs
      obtain ⟨m, hnm, hassigned⟩ := hfair.assigns hinv hs hfr
      obtain ⟨k, hmk, hres⟩ := hfair.resolves hassigned
      exact ⟨k, Nat.le_trans hnm hmk, hres⟩
  | granted =>
      rw [hf] at hs
      exact hfair.resolves (.inl hs)
  | forsaken =>
      rw [hf] at hs
      exact absurd hs (hfair.noneForsaken hnone n s)
  | published v =>
      rw [hf] at hs
      exact ⟨n, Nat.le_refl n, Fates.resolvedAt_iff.2 ⟨_, hs, rfl⟩⟩
  | dropped =>
      rw [hf] at hs
      exact ⟨n, Nat.le_refl n, Fates.resolvedAt_iff.2 ⟨_, hs, rfl⟩⟩

/-- The consumer gets past every sequence that was taken. -/
theorem Fair.passes (hinv : sc.Inv) (hnone : sc.NoneForsaken) (count n : Nat)
    (hcount : count ≤ (sc.along later n).fates.length) :
    ∃ m, n ≤ m ∧ count ≤ (sc.along later m).frontier := by
  induction count with
  | zero => exact ⟨n, Nat.le_refl n, Nat.zero_le _⟩
  | succ s ih =>
      obtain ⟨k, hnk, hfr⟩ := ih (Nat.le_of_succ_le hcount)
      have hlt : s < (sc.along later k).fates.length :=
        Nat.lt_of_lt_of_le hcount (length_along hnk)
      obtain ⟨i, hki, hres⟩ := hfair.resolves_frontier hinv hnone hlt hfr
      obtain ⟨m, him, hop, hmay⟩ := hfair.asks i
      -- the question that comes then gets past the sequence
      have hpast := (frontier_ask (inv_along later hinv m) (not_lent_of_mayAsk hmay)).2 s
        (Nat.le_trans hfr (frontier_along hinv (Nat.le_trans hki him)))
        (resolvedAt_along him hres)
      refine ⟨m + 1, Nat.le_succ_of_le (Nat.le_trans hnk (Nat.le_trans hki him)), ?_⟩
      rw [along_succ, hop]
      simp only [step, hmay, if_true]
      exact hpast

end

-- ============================================================ the result

/-- After every run in which a closed ring keeps its consumer: a closed
ring refuses whoever asks for a sequence or a cell, and nothing is
published on it but under a cell that was granted before; under such a
cell an event can still be published, which is handed out when its turn
comes, or the sequence can be dropped, and is passed over. Where all
sequences are resolved, a drain gets to the end, with no backlog and as
many events handed out as were published. No sequence is forsaken; and
while the parties do what they owe, each that was taken is resolved some
time and passed by the consumer, which on a closed ring gets to the end
for good. -/
theorem closing_loses_nothing (size : Nat) (ops : List RingOp)
    (hattended : Attended ops (start size)) :
    let sc := (start size).run ops
    (sc.ring.closed = true → sc.ring.reserve = none
        ∧ sc.ring.claim = (.error .stopped, sc.ring)
        ∧ ∀ s, (sc.ring.confirm s).1 = .refused ∨ (sc.ring.confirm s).1 = .waiting)
      ∧ (∀ earlier, earlier <+: ops → ((start size).run earlier).ring.closed = true →
        ∀ (s : Nat) (v : EventValues), sc.fates[s]? = some (.published v) →
          ((start size).run earlier).fates[s]? = some (.published v)
            ∨ ((start size).run earlier).fates[s]? = some .granted)
      ∧ (∀ s : Nat, sc.fates[s]? = some .granted → ∀ later : List RingOp,
        (∀ v, let sc' := (sc.step (.produce (.publish s v))).run later
          sc'.fates[s]? = some (.published v)
            ∧ (s < sc'.frontier → ∃ e ∈ sc'.handed, e.sequence = s
              ∧ e.slot = { EventSlot.ofValues v with endOfBatch := e.endOfBatch }))
        ∧ (let sc' := (sc.step (.produce (.abandon s))).run later
          sc'.fates[s]? = some .dropped ∧ ∀ e ∈ sc'.handed, e.sequence ≠ s))
      ∧ ((∀ s < sc.ring.claimed, sc.fates.resolvedAt s = true) →
        sc.atRest.drain.2.isCaughtUp = true ∧ sc.atRest.drain.2.backlog = 0
          ∧ (sc.handed ++ sc.atRest.drain.1).length = publishes ops (start size))
      ∧ sc.NoneForsaken
      ∧ (∀ later, sc.Fair later → ∀ n, ∃ m, n ≤ m
        ∧ (∀ s < (sc.along later n).fates.length,
          (sc.along later m).fates.resolvedAt s = true ∧ s < (sc.along later m).frontier)
        ∧ ((sc.along later n).ring.closed = true → (sc.along later n).arrived = 0 →
          ∀ k, m ≤ k → (sc.along later k).atRest.isCaughtUp = true
            ∧ (sc.along later k).atRest.backlog = 0
            ∧ (sc.along later k).handed.length
              = publishes (ops ++ (List.range k).map later) (start size))) := by
  intro sc
  have hinv : sc.Inv := inv_run ops (inv_start size)
  have hnone : sc.NoneForsaken := noneForsaken_run hattended fun s hs => by cases hs
  refine ⟨fun hclosed => ⟨Ring.reserve_of_closed hclosed, Ring.claim_of_closed hclosed,
      Ring.confirm_of_closed hclosed⟩, ?_, ?_, ?_, hnone, ?_⟩
  -- what is published in the end was granted by the time of the close
  · rintro earlier ⟨rest, rfl⟩ hclosed s v hs
    have hs' : (((start size).run earlier).run rest).fates[s]? = some (.published v) := by
      rw [← run_append]
      exact hs
    exact published_before (inv_run earlier (inv_start size)) hclosed hs'
  -- a claim that was granted is resolved by its own producer, and for good
  · intro s hs later
    refine ⟨fun v => ?_, ?_⟩
    · have hpublished : ((sc.step (.produce (.publish s v))).run later).fates[s]?
          = some (.published v) := settled_run later (fates_publish hs v) rfl
      exact ⟨hpublished, (inv_run later (inv_step hinv _)).handed_of_published hpublished⟩
    · have hdropped : ((sc.step (.produce (.abandon s))).run later).fates[s]?
          = some .dropped := settled_run later (fates_abandon hs) rfl
      exact ⟨hdropped, (inv_run later (inv_step hinv _)).not_handed_of_dropped hdropped⟩
  · intro hall
    rw [publishes_eq]
    exact hinv.drained hall
  -- everything that was claimed is resolved in the end, and then passed
  · intro later hfair n
    obtain ⟨m, hnm, hpast⟩ := hfair.passes hinv hnone _ n (Nat.le_refl _)
    refine ⟨m, hnm, fun s hs => ?_, fun hclosed harrived k hmk => ?_⟩
    · have hlt := Nat.lt_of_lt_of_le hs hpast
      exact ⟨(inv_along later hinv m).tracks.resolved_of_lt_frontier hlt, hlt⟩
    · have hend : (sc.along later k).fates.length ≤ (sc.along later k).frontier := by
        rw [length_along_of_closed hinv hclosed harrived (Nat.le_trans hnm hmk)]
        exact Nat.le_trans hpast (frontier_along hinv hmk)
      have hcount : publishes (ops ++ (List.range k).map later) (start size)
          = (sc.along later k).fates.published.length := by
        rw [publishes_eq, run_append]
        rfl
      rw [hcount]
      exact (inv_along later hinv k).caught_up hend

/-- One producer holds a cell and another is about to take a sequence when
the ring is closed. -/
def lateOps : List RingOp := [.take, .produce .claim, .arrive, .close]

/-- The second one takes its sequence and is turned away, and only then
does the first one publish; the consumer never stops asking. -/
def lateFuture : Nat → RingOp
  | 0 => .draw
  | 1 => .produce (.confirm 1)
  | 2 => .produce (.publish 0 (.ofText "a"))
  | 3 => .next
  | 4 => .release
  | _ => .next

theorem along_lateFuture (n : Nat) :
    ((start 2).run lateOps).along lateFuture (n + 6)
      = ((start 2).run lateOps).along lateFuture 6 := by
  induction n with
  | zero => rfl
  | succ n ih =>
      rw [along_succ, ih]
      rfl

theorem fair_lateFuture : ((start 2).run lateOps).Fair lateFuture := by
  have hstays : ∀ n, (((start 2).run lateOps).along lateFuture n).ring.taken = true
    | 0 | 1 | 2 | 3 | 4 | 5 => rfl
    | n + 6 => by
        rw [along_lateFuture]
        rfl
  have hdone : ∀ n, (((start 2).run lateOps).along lateFuture (n + 3)).fates
      = [.published (.ofText "a"), .dropped]
    | 0 | 1 | 2 => rfl
    | n + 3 => by
        rw [along_lateFuture]
        rfl
  refine ⟨fun n _ => hstays n, fun n => ⟨n + 6, Nat.le_add_right n 6, rfl, ?_⟩,
    fun n s hs => ?_, fun n s hs => ?_⟩
  · rw [along_lateFuture]
    rfl
  · -- the first producer holds its cell up to its turn
    match n, s, hs with
    | 0, 0, _ | 1, 0, _ | 2, 0, _ => exact ⟨2, by omega, .inr ⟨_, rfl⟩⟩
    | 1, 1, hs | 2, 1, hs => cases hs
    | n + 3, s, hs =>
        rw [hdone] at hs
        match s, hs with
        | 0, hs | 1, hs => cases hs
  · -- the second one waits just before it asks
    match n, s, hs with
    | 0, 0, hs | 1, 0, hs | 2, 0, hs | 2, 1, hs => cases hs
    | 1, 1, _ => exact ⟨1, by omega, rfl⟩
    | n + 3, s, hs =>
        rw [hdone] at hs
        match s, hs with
        | 0, hs | 1, hs => cases hs

/-- The sequence that is taken on the closed ring does not keep the
consumer from the end. -/
theorem closing_loses_nothing_late :
    Attended lateOps (start 2) ∧ ((start 2).run lateOps).Fair lateFuture
      ∧ ∃ m, 1 ≤ m ∧ ∀ k, m ≤ k →
        (((start 2).run lateOps).along lateFuture k).atRest.isCaughtUp = true
          ∧ (((start 2).run lateOps).along lateFuture k).handed.length
            = publishes (lateOps ++ (List.range k).map lateFuture) (start 2) := by
  have hattended : Attended lateOps (start 2) := by
    intro earlier hpre hclosed
    obtain ⟨k, rfl⟩ : ∃ k, earlier = lateOps.take k := ⟨_, List.prefix_iff_eq_take.1 hpre⟩
    match k, hclosed with
    | 0, hclosed => cases hclosed
    | 1, _ | 2, _ | 3, _ => rfl
    | k + 4, _ =>
        rw [List.take_of_length_le (Nat.le_add_left 4 k)]
        rfl
  obtain ⟨-, -, -, -, -, hlive⟩ := closing_loses_nothing 2 lateOps hattended
  obtain ⟨m, hm, -, hend⟩ := hlive lateFuture fair_lateFuture 1
  exact ⟨hattended, fair_lateFuture, m, hm, fun k hk =>
    ⟨(hend rfl rfl k hk).1, (hend rfl rfl k hk).2.2⟩⟩

end Scene

end LogPipeline
