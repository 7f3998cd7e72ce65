/-
What one operation enters in the record of a ring: nothing, one more
sequence, or one turn in the life of one sequence. `Entered` says all of
it, with the number of events that the operation publishes; facts about
the record after an operation are read off it, forwards
(`Entered.turns`) or backwards (`Entered.origin`), and need not look at
the operations again.

So what is resolved stays so (`settled_step`), a sequence is forsaken
only where a closed ring has no consumer (`noneForsaken_step`), and a
closed ring lets no mute sequence have an event (`muteAt_step`). Beside
the record stand the marks that only move one way: a closed ring stays
closed, and the frontier of the consumer never moves back.
-/
import LogPipeline.Proofs.Ring.Delivery
import LogPipeline.Proofs.Ring.Published

namespace LogPipeline

namespace Scene

variable {sc : Scene} {s : Nat} {f g : Fate}

/-- A closed ring still has its consumer. -/
def Watched (sc : Scene) : Prop := sc.ring.closed = true → sc.ring.taken = true

-- ================================================= what is entered

/-- A turn in the life of a sequence. -/
inductive Turn (sc : Scene) : Fate → Fate → Prop
  | granted (h : sc.ring.closed = false) : Turn sc .reserved .granted
  | refused : Turn sc .reserved .dropped
  | forsaken (h : ¬ sc.Watched) : Turn sc .reserved .forsaken
  | published (v : EventValues) : Turn sc .granted (.published v)
  | abandoned : Turn sc .granted .dropped

/-- What an operation enters in the record, with the number of events
that it publishes. -/
inductive Entered (sc : Scene) : Nat → Fates → Prop
  | nothing : Entered sc 0 sc.fates
  | reserved (h : sc.ring.closed = true → 0 < sc.arrived) :
      Entered sc 0 (sc.fates ++ [.reserved])
  | claimed (h : sc.ring.closed = false) : Entered sc 0 (sc.fates ++ [.granted])
  | turned {s : Nat} {f g : Fate} (hs : sc.fates[s]? = some f) (h : sc.Turn f g) :
      Entered sc g.values?.toList.length (sc.fates.set s g)

/-- The number of events that an operation publishes. -/
def accepted (sc : Scene) : RingOp → Nat
  | .produce (.publish s _) =>
      match sc.fates[s]? with
      | some .granted => 1
      | _ => 0
  | _ => 0

/-- The number of events that are published in a run. -/
def publishes : List RingOp → Scene → Nat
  | [], _ => 0
  | op :: rest, sc => sc.accepted op + publishes rest (sc.step op)

theorem Turn.not_isResolved (h : sc.Turn f g) : f.isResolved = false := by
  cases h <;> rfl

theorem Turn.values?_eq (h : sc.Turn f g) : f.values? = none := by
  cases h <;> rfl

/-- The answer to a producer that asks for its cell. -/
theorem entered_confirm (hs : sc.fates[s]? = some .reserved) :
    Entered sc 0 (sc.traffic.confirm s).fates := by
  unfold Traffic.confirm Ring.confirm
  by_cases hfree : sc.ring.isFree s = true
  · have hfree' : sc.traffic.ring.isFree s = true := hfree
    cases hclosed : sc.traffic.ring.closed with
    | false =>
        simp only [hfree', if_true, Bool.false_eq_true, if_false]
        exact .turned hs (.granted hclosed)
    | true =>
        simp only [hfree', if_true]
        exact .turned hs .refused
  · have hfree' : sc.traffic.ring.isFree s = false := Bool.eq_false_iff.2 hfree
    simp only [hfree', Bool.false_eq_true, if_false]
    cases hgone : sc.traffic.ring.closed && !sc.traffic.ring.taken with
    | true =>
        rw [Bool.and_eq_true, Bool.not_eq_true'] at hgone
        simp only [if_true]
        refine .turned hs (.forsaken fun hwatched => ?_)
        exact Bool.eq_false_iff.1 hgone.2 (hwatched hgone.1)
    | false => exact .nothing

/-- What a producer does is entered. -/
theorem entered_produce (sc : Scene) (op : ProducerOp) :
    Entered sc (sc.accepted (.produce op)) (sc.traffic.produce op).fates := by
  cases op with
  | reserve =>
      dsimp only [accepted, Traffic.produce]
      unfold Ring.reserve
      by_cases hclosed : sc.traffic.ring.closed = true
      · rw [if_pos hclosed]
        exact .nothing
      · rw [if_neg hclosed]
        exact .reserved fun h => absurd h hclosed
  | claim =>
      dsimp only [accepted, Traffic.produce]
      unfold Ring.claim
      by_cases hclosed : sc.traffic.ring.closed = true
      · rw [if_pos hclosed]
        exact .nothing
      · rw [if_neg hclosed]
        split
        · next hclaim =>
          split at hclaim
          · exact .claimed (Bool.eq_false_iff.2 hclosed)
          · cases hclaim
        · exact .nothing
  | confirm s =>
      dsimp only [accepted, Traffic.produce]
      split
      · next hs => exact entered_confirm hs
      · exact .nothing
  | forsake s =>
      dsimp only [accepted, Traffic.produce]
      split
      · next hs =>
        split
        -- to be forsaken the ring has to be closed, and without a consumer
        · next hgone =>
          rw [Bool.and_eq_true, Bool.not_eq_true'] at hgone
          refine .turned hs (.forsaken fun hwatched => ?_)
          exact Bool.eq_false_iff.1 hgone.2 (hwatched hgone.1)
        · exact .nothing
      · exact .nothing
  | publish s v =>
      dsimp only [accepted, Traffic.produce, fates]
      cases hs : sc.traffic.fates[s]? with
      | none => exact .nothing
      | some f =>
          cases f with
          | granted => exact .turned hs (.published v)
          | _ => exact .nothing
  | abandon s =>
      dsimp only [accepted, Traffic.produce]
      split
      · next hs => exact .turned hs .abandoned
      · exact .nothing

/-- So is whatever happens. -/
theorem entered_step (sc : Scene) (op : RingOp) :
    Entered sc (sc.accepted op) (sc.step op).fates := by
  cases op with
  | produce op => exact entered_produce sc op
  | arrive =>
      simp only [step]
      split
      · exact .nothing
      · exact .nothing
  | draw =>
      simp only [step]
      split
      · exact .nothing
      · next harrived => exact .reserved fun _ => Nat.pos_of_ne_zero harrived
  | take =>
      simp only [step]
      cases sc.ring.take with
      | none => exact .nothing
      | some r => exact .nothing
  | untake =>
      simp only [step]
      split
      · exact .nothing
      · exact .nothing
  | next =>
      have hask : sc.ask.fates = sc.fates := by
        unfold ask
        split <;> rfl
      simp only [step]
      split
      · rw [hask]
        exact .nothing
      · exact .nothing
  | release =>
      simp only [step]
      split
      · exact .nothing
      · exact .nothing
  | close => exact .nothing

namespace Entered

variable {n : Nat} {fates : Fates}

/-- A sequence stays as it is or takes a turn. -/
theorem turns (h : Entered sc n fates) (hs : sc.fates[s]? = some f) :
    ∃ g, fates[s]? = some g ∧ (g = f ∨ sc.Turn f g) := by
  have hlt := Fates.lt_of_getElem? hs
  cases h with
  | nothing => exact ⟨f, hs, .inl rfl⟩
  | reserved _ => exact ⟨f, (List.getElem?_append_left hlt).trans hs, .inl rfl⟩
  | claimed _ => exact ⟨f, (List.getElem?_append_left hlt).trans hs, .inl rfl⟩
  | @turned t f' g' ht hturn =>
      by_cases heq : t = s
      · subst heq
        rw [hs] at ht
        cases ht
        exact ⟨g', Fates.getElem?_set_self hs g', .inr hturn⟩
      · exact ⟨f, (Fates.getElem?_set_of_ne heq g').trans hs, .inl rfl⟩

/-- A fate was there before, or comes of a turn or of a taken sequence. -/
theorem origin (h : Entered sc n fates) (hs : fates[s]? = some g) :
    (∃ f, sc.fates[s]? = some f ∧ (g = f ∨ sc.Turn f g))
      ∨ g = .reserved ∨ (g = .granted ∧ sc.ring.closed = false) := by
  rcases Nat.lt_or_ge s sc.fates.length with hlt | hge
  · have hf := List.getElem?_eq_getElem hlt
    obtain ⟨g', hg', hturn⟩ := h.turns hf
    rw [hs] at hg'
    cases hg'
    exact .inl ⟨_, hf, hturn⟩
  · -- the sequence is new
    have hnew : ∀ f, (sc.fates ++ [f])[s]? = some g → g = f := by
      intro f hg
      rw [List.getElem?_append_right hge, List.getElem?_singleton] at hg
      split at hg
      · exact (Option.some.inj hg).symm
      · cases hg
    cases h with
    | nothing => exact absurd (Fates.lt_of_getElem? hs) (Nat.not_lt.2 hge)
    | reserved _ => exact .inr (.inl (hnew _ hs))
    | claimed hopen => exact .inr (.inr ⟨hnew _ hs, hopen⟩)
    | turned _ _ =>
        have hlt := Fates.lt_of_getElem? hs
        rw [List.length_set] at hlt
        exact absurd hlt (Nat.not_lt.2 hge)

/-- What is published is counted. -/
theorem length_published (h : Entered sc n fates) :
    fates.published.length = sc.fates.published.length + n := by
  have hnew : ∀ f : Fate, f.values? = none →
      (Fates.published (sc.fates ++ [f])).length = sc.fates.published.length + 0 := by
    intro f hf
    unfold Fates.published
    rw [List.filterMap_append, List.filterMap_cons, hf]
    exact congrArg List.length (List.append_nil _)
  cases h with
  | nothing => rfl
  | reserved _ => exact hnew _ rfl
  | claimed _ => exact hnew _ rfl
  | turned hs hturn => exact Fates.length_published_set hs hturn.values?_eq _

/-- Sequences are only added, and by a closed ring only to producers that
had found it open. -/
theorem length_le (h : Entered sc n fates) : sc.fates.length ≤ fates.length := by
  cases h with
  | nothing => exact Nat.le_refl _
  | reserved _ => exact (List.prefix_append _ _).length_le
  | claimed _ => exact (List.prefix_append _ _).length_le
  | turned _ _ => exact Nat.le_of_eq List.length_set.symm

theorem length_eq (h : Entered sc n fates) (hclosed : sc.ring.closed = true)
    (harrived : sc.arrived = 0) : fates.length = sc.fates.length := by
  cases h with
  | nothing => rfl
  | reserved hlate => exact absurd (hlate hclosed) (by omega)
  | claimed hopen =>
      rw [hclosed] at hopen
      cases hopen
  | turned _ _ => exact List.length_set

end Entered

-- ========================================================= one operation

/-- What is resolved stays so. -/
theorem settled_step (op : RingOp) (hs : sc.fates[s]? = some f) (hf : f.isResolved = true) :
    (sc.step op).fates[s]? = some f := by
  obtain ⟨g, hg, rfl | hturn⟩ := (entered_step sc op).turns hs
  · exact hg
  · rw [hturn.not_isResolved] at hf
    cases hf

/-- No sequence is forsaken where the consumer stays. -/
def NoneForsaken (sc : Scene) : Prop := ∀ s : Nat, sc.fates[s]? ≠ some Fate.forsaken

theorem noneForsaken_step (hw : sc.Watched) (h : sc.NoneForsaken) (op : RingOp) :
    (sc.step op).NoneForsaken := by
  intro s hs
  rcases (entered_step sc op).origin hs with ⟨f, hf, rfl | hturn⟩ | hnew | ⟨hnew, -⟩
  · exact h s hf
  · cases hturn with
    | forsaken hgone => exact hgone hw
  · cases hnew
  · cases hnew

/-- A closed ring takes no event in. -/
theorem muteAt_step (hclosed : sc.ring.closed = true) (h : sc.traffic.MuteAt s) (op : RingOp) :
    (sc.step op).traffic.MuteAt s := by
  intro g hg
  rcases (entered_step sc op).origin hg with ⟨f, hf, rfl | hturn⟩ | rfl | ⟨-, hopen⟩
  · exact h g hf
  · have hmute := h f hf
    cases hturn with
    | granted hopen =>
        rw [hclosed] at hopen
        cases hopen
    | refused => rfl
    | forsaken _ => rfl
    | published v => cases hmute
    | abandoned => cases hmute
  · rfl
  · rw [hclosed] at hopen
    cases hopen

theorem not_lent_of_mayAsk (h : sc.mayAsk = true) : sc.ring.lent = false := by
  unfold mayAsk at h
  rw [Bool.and_eq_true, Bool.not_eq_true'] at h
  exact h.2

/-- A closed ring stays closed. -/
theorem closed_step (h : sc.Inv) (hclosed : sc.ring.closed = true) (op : RingOp) :
    (sc.step op).ring.closed = true := by
  cases op with
  | produce op => exact (Traffic.kept_produce h.tracks op).closed_eq.trans hclosed
  | arrive =>
      simp only [step]
      split <;> exact hclosed
  | draw =>
      simp only [step]
      split <;> exact hclosed
  | take =>
      simp only [step]
      unfold Ring.take
      split <;> exact hclosed
  | untake =>
      simp only [step]
      split <;> exact hclosed
  | next =>
      simp only [step]
      split
      · next hask =>
        have hl := not_lent_of_mayAsk hask
        unfold ask
        split
        · next r hn => exact (Ring.tryNext_none h.tracks hn).1.closed_eq.trans hclosed
        · next e r hn =>
          exact (Ring.tryNext_some h.tracks hl hn).1.closed_eq.trans hclosed
      · exact hclosed
  | release =>
      simp only [step]
      split <;> exact hclosed
  | close => rfl

/-- On a closed ring no producer sets about to take a sequence. -/
theorem arrived_step (hclosed : sc.ring.closed = true) (harrived : sc.arrived = 0)
    (op : RingOp) : (sc.step op).arrived = 0 := by
  cases op with
  | arrive =>
      simp only [step]
      rw [if_pos hclosed]
      exact harrived
  | draw =>
      simp only [step]
      rw [if_pos harrived]
      exact harrived
  | take =>
      simp only [step]
      cases sc.ring.take with
      | none => exact harrived
      | some r => exact harrived
  | next =>
      have hask : sc.ask.arrived = sc.arrived := by
        unfold ask
        split <;> rfl
      simp only [step]
      split
      · exact hask.trans harrived
      · exact harrived
  | untake | release =>
      simp only [step]
      split <;> exact harrived
  | _ => exact harrived

/-- Asking moves the frontier on, past every sequence that is resolved and
comes next. -/
theorem frontier_ask (h : sc.Inv) (hl : sc.ring.lent = false) :
    sc.frontier ≤ sc.ask.frontier ∧
      (∀ s ≤ sc.frontier, sc.fates.resolvedAt s = true → s < sc.ask.frontier) := by
  have hfr : sc.frontier = sc.ring.consumed := Ring.frontier_of_not_lent hl
  rw [hfr]
  unfold ask
  split
  · next r hn =>
    obtain ⟨hp, hreach⟩ := Ring.tryNext_none h.tracks hn
    have hend : frontier (sc.withRing r) = r.consumed :=
      Ring.frontier_of_not_lent (Ring.lent_tryNext_none hl hn)
    rw [hend]
    refine ⟨hp.le, fun s hs hres => Nat.lt_of_le_of_ne (Nat.le_trans hs hp.le) fun heq => ?_⟩
    rw [heq, hreach, Fates.not_resolvedAt_reach] at hres
    cases hres
  · next e r hn =>
    obtain ⟨hp, hl', -⟩ := Ring.tryNext_some h.tracks hl hn
    have hend : frontier { sc.withRing r with handed := sc.handed ++ [e] } = r.consumed + 1 :=
      Ring.frontier_of_lent hl'
    rw [hend]
    exact ⟨Nat.le_succ_of_le hp.le, fun s hs _ => Nat.lt_succ_of_le (Nat.le_trans hs hp.le)⟩

/-- Nothing moves the frontier back. -/
theorem frontier_le_step (h : sc.Inv) (op : RingOp) : sc.frontier ≤ (sc.step op).frontier := by
  cases op with
  | produce op =>
      have hk := Traffic.kept_produce h.tracks op
      exact Nat.le_of_eq (Ring.frontier_congr hk.consumed_eq hk.lent_eq).symm
  | arrive =>
      simp only [step]
      split <;> exact Nat.le_refl _
  | draw =>
      simp only [step]
      split <;> exact Nat.le_refl _
  | take =>
      simp only [step]
      unfold Ring.take
      split <;> exact Nat.le_refl _
  | untake =>
      simp only [step]
      split <;> exact Nat.le_refl _
  | next =>
      simp only [step]
      split
      · next hask => exact (frontier_ask h (not_lent_of_mayAsk hask)).1
      · exact Nat.le_refl _
  | release =>
      simp only [step]
      split
      · next hl => exact Nat.le_of_eq (Ring.frontier_release hl).symm
      · exact Nat.le_refl _
  | close => exact Nat.le_refl _

/-- Who holds a cell can publish an event, whether the ring is closed or not. -/
theorem fates_publish (hs : sc.fates[s]? = some .granted) (v : EventValues) :
    (sc.step (.produce (.publish s v))).fates[s]? = some (.published v) := by
  have hstep : (sc.step (.produce (.publish s v))).fates = sc.fates.set s (.published v) :=
    congrArg Traffic.fates (Traffic.produce_publish hs v)
  rw [hstep]
  exact Fates.getElem?_set_self hs _

/-- It can let go of the cell as well. -/
theorem fates_abandon (hs : sc.fates[s]? = some .granted) :
    (sc.step (.produce (.abandon s))).fates[s]? = some .dropped := by
  have hstep : (sc.step (.produce (.abandon s))).fates = sc.fates.set s .dropped := by
    show (match sc.fates[s]? with
      | some .granted => (⟨sc.ring.abandon s, sc.fates.set s .dropped⟩ : Traffic)
      | _ => sc.traffic).fates = _
    rw [hs]
  rw [hstep]
  exact Fates.getElem?_set_self hs _

end Scene

end LogPipeline
