/-
All that a step of a dispatcher can do, said once: `Stepped` has one case
for each arm of `step`, with what has to hold for it. Every step is one of
these (`stepped_of_step`), and each of these is a step (`Stepped.step_eq`).
What steps preserve is proved by the cases.

Where the handler is called, or goes on with a call, what becomes of it
is left to `afterEvent`, `afterFlush` and `afterStop`: the step is an
equation about these.
-/
import LogPipeline.Dispatcher

namespace LogPipeline

/-- An event is shown to the handler; whether it ends a batch is counted
before that. -/
def Shared.counted {H : Type} (endOfBatch : Bool) (s : Shared H) : Shared H :=
  if endOfBatch then { s with metrics := s.metrics.count .endOfBatch } else s

@[simp] theorem Shared.handler_counted {H : Type} (endOfBatch : Bool) (s : Shared H) :
    (s.counted endOfBatch).handler = s.handler := by
  unfold counted
  split <;> rfl

namespace Dispatcher

variable {H : Type}

/-- What a dispatcher and what it shares have become after one step. -/
inductive Stepped (h : Handler H) (d : Dispatcher) (s : Shared H) : Dispatcher → Shared H → Prop
  /-- The ring is closed for the last drain. -/
  | close (hphase : d.phase = .top) (hbusy : d.isIdle = false) (hstop : d.stopRequested = true)
      (hclosed : d.closed = false) :
      Stepped h d s { d with ring := d.ring.close, closed := true, phase := .draining false } s
  | drain (hphase : d.phase = .top) (hbusy : d.isIdle = false)
      (hstay : (d.stopRequested && !d.closed) = false) :
      Stepped h d s { d with phase := .draining false } s
  | dry {handled : Bool} {ring : Ring} (hphase : d.phase = .draining handled)
      (hnext : d.ring.tryNext = (none, ring)) :
      Stepped h d s { d with ring, phase := .checking handled } s
  | event {handled : Bool} {e : Ring.Lent} {ring : Ring} {d' : Dispatcher} {s' : Shared H}
      (hphase : d.phase = .draining handled) (hnext : d.ring.tryNext = (some e, ring))
      (hafter : afterEvent (h.onEvent e.slot e.endOfBatch s.handler) { d with ring }
        (s.counted e.endOfBatch) = (d', s')) :
      Stepped h d s d' s'
  | eventOn {c : Call H} {d' : Dispatcher} {s' : Shared H} (hphase : d.phase = .handling)
      (hc : h.resume s.handler = some c) (hafter : afterEvent c d s = (d', s')) :
      Stepped h d s d' s'
  | due {handled : Bool} (hphase : d.phase = .checking handled) (hdue : d.covered < d.requested) :
      Stepped h d s { d with phase := .flushing handled d.requested } s
  | undue {handled : Bool} (hphase : d.phase = .checking handled)
      (hundue : ¬ d.covered < d.requested) :
      Stepped h d s { d with phase := .deciding handled } s
  | flush {handled : Bool} {ticket : Nat} {d' : Dispatcher} {s' : Shared H}
      (hphase : d.phase = .flushing handled ticket)
      (hafter : afterFlush handled ticket (h.onFlush s.handler) d s = (d', s')) :
      Stepped h d s d' s'
  | flushOn {handled : Bool} {ticket : Nat} {c : Call H} {d' : Dispatcher} {s' : Shared H}
      (hphase : d.phase = .heldInFlush handled ticket) (hc : h.resume s.handler = some c)
      (hafter : afterFlush handled ticket c d s = (d', s')) :
      Stepped h d s d' s'
  | store {handled : Bool} {ticket : Nat} (hphase : d.phase = .storing handled ticket) :
      Stepped h d s { d with covered := ticket, completed := ticket, phase := .deciding handled } s
  /-- There may be more to come. -/
  | again {handled : Bool} (hphase : d.phase = .deciding handled)
      (hmore : handled = false → d.closed = true →
        d.ring.isCaughtUp = false ∧ d.expired = false) :
      Stepped h d s { d with phase := .top } s
  | leave (hphase : d.phase = .deciding false) (hclosed : d.closed = true)
      (hup : d.ring.isCaughtUp = true) :
      Stepped h d s { d with phase := .leaving } s
  /-- The deadline has passed with sequences unresolved. -/
  | giveUp (hphase : d.phase = .deciding false) (hclosed : d.closed = true)
      (hbehind : d.ring.isCaughtUp = false) (hexpired : d.expired = true) :
      Stepped h d s { d with abandoned := d.ring.backlog, phase := .leaving }
        (report [abandonNotice d.ring.backlog] s)
  | depart (hphase : d.phase = .leaving) :
      Stepped h d s { d with ring := d.ring.close.untake, phase := .stopping } s
  | stop {d' : Dispatcher} {s' : Shared H} (hphase : d.phase = .stopping)
      (hafter : afterStop (h.onShutdown s.handler) d s = (d', s')) :
      Stepped h d s d' s'
  | stopOn {c : Call H} {d' : Dispatcher} {s' : Shared H} (hphase : d.phase = .heldInStop)
      (hc : h.resume s.handler = some c) (hafter : afterStop c d s = (d', s')) :
      Stepped h d s d' s'

variable {h : Handler H} {d d' : Dispatcher} {s s' : Shared H}

/-- A step does one of the things that are listed. -/
theorem stepped_of_step (hs : step h d s = some (d', s')) : Stepped h d s d' s' := by
  cases hphase : d.phase with
  | top =>
      simp only [step, hphase] at hs
      split at hs
      · cases hs
      · next hbusy =>
        rw [Bool.not_eq_true] at hbusy
        split at hs
        · next hstop =>
          rw [Bool.and_eq_true, Bool.not_eq_true'] at hstop
          cases hs
          exact .close hphase hbusy hstop.1 hstop.2
        · next hstay =>
          cases hs
          exact .drain hphase hbusy (Bool.eq_false_iff.2 hstay)
  | draining handled =>
      simp only [step, hphase] at hs
      split at hs
      · next ring hnext =>
        cases hs
        exact .dry hphase hnext
      · next e ring hnext =>
        refine .event hphase hnext ?_
        -- the handler is called with what is shared once the event is counted
        rw [← Shared.handler_counted e.endOfBatch s]
        exact Option.some.inj hs
  | handling =>
      simp only [step, hphase] at hs
      obtain ⟨c, hc, hafter⟩ := Option.map_eq_some_iff.1 hs
      exact .eventOn hphase hc hafter
  | checking handled =>
      simp only [step, hphase] at hs
      -- a dry ring that is closed leads on only once it is caught up, or in vain
      split at hs
      · next hdue =>
        cases hs
        exact .due hphase hdue
      · next hundue =>
        cases hs
        exact .undue hphase hundue
  | flushing handled ticket =>
      simp only [step, hphase] at hs
      exact .flush hphase (Option.some.inj hs)
  | heldInFlush handled ticket =>
      simp only [step, hphase] at hs
      obtain ⟨c, hc, hafter⟩ := Option.map_eq_some_iff.1 hs
      exact .flushOn hphase hc hafter
  | storing handled ticket =>
      simp only [step, hphase] at hs
      cases hs
      exact .store hphase
  | deciding handled =>
      simp only [step, hphase] at hs
      split at hs
      · next hmore =>
        cases hs
        refine .again hphase fun hdry hclosed => ?_
        rw [hdry, hclosed] at hmore
        cases hmore
      · next hlast =>
        rw [Bool.not_eq_true, Bool.or_eq_false_iff, Bool.not_eq_false'] at hlast
        obtain ⟨rfl, hclosed⟩ := hlast
        split at hs
        · next hup =>
          cases hs
          exact .leave hphase hclosed hup
        · next hbehind =>
          rw [Bool.not_eq_true] at hbehind
          split at hs
          · next hexpired =>
            cases hs
            exact .giveUp hphase hclosed hbehind hexpired
          · next hexpired =>
            cases hs
            exact .again hphase fun _ _ => ⟨hbehind, Bool.eq_false_iff.2 hexpired⟩
  | leaving =>
      simp only [step, hphase] at hs
      cases hs
      exact .depart hphase
  | stopping =>
      simp only [step, hphase] at hs
      exact .stop hphase (Option.some.inj hs)
  | heldInStop =>
      simp only [step, hphase] at hs
      obtain ⟨c, hc, hafter⟩ := Option.map_eq_some_iff.1 hs
      exact .stopOn hphase hc hafter
  | finished =>
      simp only [step, hphase] at hs
      cases hs

/-- Each of the things that are listed is what a step does there. -/
theorem Stepped.step_eq (hs : Stepped h d s d' s') : step h d s = some (d', s') := by
  cases hs with
  | close hphase hbusy hstop hclosed => simp [step, hphase, hbusy, hstop, hclosed]
  | drain hphase hbusy hstay => simp [step, hphase, hbusy, hstay]
  | dry hphase hnext => simp only [step, hphase, hnext]
  | @event handled e ring _ _ hphase hnext hafter =>
      simp only [step, hphase, hnext]
      rw [← Shared.handler_counted e.endOfBatch s] at hafter
      exact congrArg some hafter
  | eventOn hphase hc hafter | flushOn hphase hc hafter | stopOn hphase hc hafter =>
      simp only [step, hphase, hc, Option.map_some, hafter]
  | due hphase hdue => simp only [step, hphase, if_pos hdue]
  | undue hphase hundue => simp only [step, hphase, if_neg hundue]
  | flush hphase hafter | stop hphase hafter => simp only [step, hphase, hafter]
  | store hphase | depart hphase => simp only [step, hphase]
  | again hphase hmore =>
      simp only [step, hphase]
      split
      · rfl
      · next hlast =>
        rw [Bool.not_eq_true, Bool.or_eq_false_iff, Bool.not_eq_false'] at hlast
        obtain ⟨hbehind, hexpired⟩ := hmore hlast.1 hlast.2
        simp [hbehind, hexpired]
  | leave hphase hclosed hup => simp [step, hphase, hclosed, hup]
  | giveUp hphase hclosed hbehind hexpired => simp [step, hphase, hclosed, hbehind, hexpired]

end Dispatcher

end LogPipeline
