/-
Flush tickets. Who asks for a flush gets a ticket, at whatever point of its
pass the dispatcher is; the dispatcher looks at the count of tickets once
in each pass, and one call of the handler serves all that were given out
by then.

# What a step does to tickets

Of all that steps do, a ticket is concerned with seven things (`Turn`):
reading up to the count, the count itself with something due or nothing,
the call that flushes, its going on, the note that it is over, and the
rest of the pass. Each step is one of these (`turn_of_step`).

# What is kept

The counters stay in order, and the ticket in hand lies between what was
flushed and what was asked for (`Counted`). A ticket that is flushed, or
not above the one in hand, stays so (`Secured`); those that were given out
are, once tickets are counted. From when a ticket was given out, a flush
call that serves it is one that began since (`Awaited`). Flush calls are
as many as counts with something due (`Turn.flushCalls_eq`).
-/
import LogPipeline.Proofs.Dispatcher.Following

namespace LogPipeline

-- =============================================================== calls

def Task.isFlush : Task → Bool
  | flush => true
  | _ => false

/-- How often the handler was called to flush. -/
def flushCalls (calls : List HandlerCall) : Nat := calls.countP (·.task.isFlush)

/-- What one step makes of the calls. -/
inductive Grown (calls : List HandlerCall) : List HandlerCall → Prop
  | same : Grown calls calls
  | begun (c : HandlerCall) : Grown calls (calls ++ [c])
  | wentOn {init : List HandlerCall} {task : Task} {soFar reports : List StatusEntry}
      {outcome : Option Outcome} (hcalls : calls = init ++ [⟨task, soFar, none⟩]) :
      Grown calls (init ++ [⟨task, reports, outcome⟩])

/-- The handler was called to flush after the first `n` calls, and the call
is over, as are all before it. -/
def FlushedSince (n : Nat) (calls : List HandlerCall) : Prop :=
  ∃ earlier c later, calls = earlier ++ c :: later ∧ n ≤ earlier.length
    ∧ c.task = .flush ∧ c.hasEnded = true ∧ ∀ c' ∈ earlier, c'.hasEnded = true

section

variable {n : Nat} {calls calls' init : List HandlerCall} {task : Task}
  {soFar reports : List StatusEntry} {outcome : Option Outcome}

/-- The calls grow at the end only. -/
theorem Grown.keeps_tasks (h : Grown calls calls') :
    calls.map (·.task) <+: calls'.map (·.task) := by
  cases h with
  | same => exact List.prefix_rfl
  | begun c =>
      rw [List.map_append]
      exact List.prefix_append _ _
  | wentOn hcalls =>
      rw [hcalls, List.map_append, List.map_append]
      exact List.prefix_rfl

theorem Grown.length_le (h : Grown calls calls') : calls.length ≤ calls'.length := by
  have := h.keeps_tasks.length_le
  rwa [List.length_map, List.length_map] at this

/-- A call that is over stays as it is. -/
theorem Grown.flushedSince (h : Grown calls calls') (hf : FlushedSince n calls) :
    FlushedSince n calls' := by
  obtain ⟨earlier, c, later, hcalls, hn, htask, hended, hover⟩ := hf
  cases h with
  | same => exact ⟨earlier, c, later, hcalls, hn, htask, hended, hover⟩
  | begun c' =>
      refine ⟨earlier, c, later ++ [c'], ?_, hn, htask, hended, hover⟩
      rw [hcalls, List.append_assoc, List.cons_append]
  | @wentOn init task soFar reports outcome hlast =>
      -- the call that goes on is not over, so it is another one
      rcases List.eq_nil_or_concat later with rfl | ⟨later, c', rfl⟩
      · obtain ⟨-, hc⟩ := List.append_inj' (hcalls.symm.trans hlast) rfl
        rw [(List.cons.inj hc).1] at hended
        cases hended
      · rw [List.concat_eq_append, ← List.cons_append, ← List.append_assoc] at hcalls
        obtain ⟨rfl, -⟩ := List.append_inj' (hcalls.symm.trans hlast) rfl
        refine ⟨earlier, c, later ++ [⟨task, reports, outcome⟩], ?_, hn, htask, hended, hover⟩
        rw [List.append_assoc, List.cons_append]

/-- Another call that does not flush is not counted. -/
theorem flushCalls_concat (hflush : task.isFlush = false) :
    flushCalls (calls ++ [⟨task, reports, outcome⟩]) = flushCalls calls := by
  unfold flushCalls
  rw [List.countP_append, List.countP_singleton, hflush]
  rfl

/-- One that does is counted as soon as it begins. -/
theorem flushCalls_concat_flush :
    flushCalls (calls ++ [⟨.flush, reports, outcome⟩]) = flushCalls calls + 1 := by
  unfold flushCalls
  rw [List.countP_append, List.countP_singleton]
  rfl

theorem flushCalls_wentOn (hcalls : calls = init ++ [⟨task, soFar, none⟩]) :
    flushCalls (init ++ [⟨task, reports, outcome⟩]) = flushCalls calls := by
  unfold flushCalls
  rw [hcalls, List.countP_append, List.countP_append, List.countP_singleton, List.countP_singleton]

end

/-- Below a higher sequence there are the same events, and maybe more. -/
theorem Fates.eventsBelow_mono (fates : Fates) {m n : Nat} (hmn : m ≤ n) :
    fates.eventsBelow m <+: fates.eventsBelow n := by
  induction hmn with
  | refl => exact List.prefix_rfl
  | step _ ih =>
      rw [eventsBelow_succ]
      exact ih.trans (List.prefix_append _ _)

-- ============================================================== phases

namespace Phase

/-- The ticket up to which the dispatcher is flushing. -/
def ticket? : Phase → Option Nat
  | flushing _ u | heldInFlush _ u | storing _ u => some u
  | _ => none

/-- The tickets are counted now. -/
def isCounting : Phase → Bool
  | checking _ => true
  | _ => false

/-- The tickets are still to be counted in this pass. -/
def isUncounted : Phase → Bool
  | draining _ | handling | checking _ => true
  | _ => false

/-- A flush is due, and not begun. -/
def owesFlush : Phase → Bool
  | flushing .. => true
  | _ => false

/-- Where a call that flushes leads to. -/
def afterFlush (handled : Bool) (u : Nat) (outcome : Option Outcome) : Phase :=
  if outcome.isSome then storing handled u else heldInFlush handled u

theorem ticket?_of_isUncounted {p : Phase} (h : p.isUncounted = true) : p.ticket? = none := by
  cases p <;> first | rfl | cases h

theorem owesFlush_of_ticket? {p : Phase} (h : p.ticket? = none) : p.owesFlush = false := by
  cases p <;> first | rfl | cases h

/-- A dispatcher that has left has no ticket in hand, and counts none any
more. -/
theorem ticket?_of_isGone {p : Phase} (h : p.isGone = true) :
    p.ticket? = none ∧ p.isUncounted = false := by
  cases p <;> first | exact ⟨rfl, rfl⟩ | cases h

@[simp] theorem ticket?_afterFlush (handled : Bool) (u : Nat) (outcome : Option Outcome) :
    (afterFlush handled u outcome).ticket? = some u := by
  unfold afterFlush
  split <;> rfl

@[simp] theorem owesFlush_afterFlush (handled : Bool) (u : Nat) (outcome : Option Outcome) :
    (afterFlush handled u outcome).owesFlush = false := by
  unfold afterFlush
  split <;> rfl

end Phase

namespace Dispatcher

variable {d d' : Dispatcher} {calls calls' : List HandlerCall} {t n : Nat}

/-- The counters of tickets are the same. -/
structure SameTickets (d d' : Dispatcher) : Prop where
  requested_eq : d'.requested = d.requested
  covered_eq : d'.covered = d.covered
  completed_eq : d'.completed = d.completed

/-- What a step means to tickets. -/
inductive Turn (d : Dispatcher) (calls : List HandlerCall) :
    Dispatcher → List HandlerCall → Prop
  /-- A pass begins, or goes on reading. -/
  | read {d' : Dispatcher} {calls' : List HandlerCall} (hidle : d.phase.ticket? = none)
      (hearly : d.phase.isCounting = false) (huncounted : d'.phase.isUncounted = true)
      (hsame : SameTickets d d') (hgrown : Grown calls calls')
      (hflushes : flushCalls calls' = flushCalls calls) : Turn d calls d' calls'
  | undue {handled : Bool} (hphase : d.phase = .checking handled)
      (hundue : d.requested ≤ d.covered) : Turn d calls { d with phase := .deciding handled } calls
  | due {handled : Bool} (hphase : d.phase = .checking handled) (hdue : d.covered < d.requested) :
      Turn d calls { d with phase := .flushing handled d.requested } calls
  | flush {handled : Bool} {u : Nat} {reports : List StatusEntry} {outcome : Option Outcome}
      (hphase : d.phase = .flushing handled u) (hover : ∀ c ∈ calls, c.hasEnded = true) :
      Turn d calls { d with phase := .afterFlush handled u outcome }
        (calls ++ [⟨.flush, reports, outcome⟩])
  | flushOn {handled : Bool} {u : Nat} {init : List HandlerCall} {soFar reports : List StatusEntry}
      {outcome : Option Outcome} (hphase : d.phase = .heldInFlush handled u)
      (hcalls : calls = init ++ [⟨.flush, soFar, none⟩]) (hover : ∀ c ∈ init, c.hasEnded = true) :
      Turn d calls { d with phase := .afterFlush handled u outcome }
        (init ++ [⟨.flush, reports, outcome⟩])
  | store {handled : Bool} {u : Nat} (hphase : d.phase = .storing handled u) :
      Turn d calls { d with covered := u, completed := u, phase := .deciding handled } calls
  /-- A pass ends, or the dispatcher leaves. -/
  | rest {d' : Dispatcher} {calls' : List HandlerCall} (hidle : d.phase.ticket? = none)
      (hcounted : d.phase.isUncounted = false) (hidle' : d'.phase.ticket? = none)
      (hclosed : d'.closed = d.closed)
      (hgone : d'.phase.isGone = true → d.closed = true ∨ d.phase.isGone = true)
      (hsame : SameTickets d d') (hgrown : Grown calls calls')
      (hflushes : flushCalls calls' = flushCalls calls) : Turn d calls d' calls'

/-- In a turn the calls grow by one, or go on, or stay. -/
theorem Turn.grown (h : Turn d calls d' calls') : Grown calls calls' := by
  cases h with
  | read _ _ _ _ hgrown | rest _ _ _ _ _ _ hgrown => exact hgrown
  | undue | due | store => exact .same
  | flush => exact .begun _
  | flushOn _ hcalls => exact .wentOn hcalls

-- ============================================================ counters

/-- The counters are in order: the ticket in hand is one that was given out
and not flushed for. -/
structure Counted (d : Dispatcher) : Prop where
  completed_eq : d.completed = d.covered
  covered_le : d.covered ≤ d.requested
  inHand : ∀ u, d.phase.ticket? = some u → d.covered < u ∧ u ≤ d.requested

/-- The ticket is flushed, or the flush for it is in hand. -/
def Secured (t : Nat) (d : Dispatcher) : Prop :=
  t ≤ d.completed ∨ ∃ u, d.phase.ticket? = some u ∧ t ≤ u

/-- With nothing in hand, what is secured is flushed. -/
theorem isFlushed_of_secured (hidle : d.phase.ticket? = none) (hs : d.Secured t) :
    d.isFlushed t = true := by
  rcases hs with hdone | ⟨u, hu, -⟩
  · exact decide_eq_true hdone
  · rw [hidle] at hu
    cases hu

/-- With no ticket in hand the counters are all there is. -/
theorem Counted.same (hc : d.Counted) (hsame : SameTickets d d') (hidle : d'.phase.ticket? = none) :
    d'.Counted where
  completed_eq := hsame.completed_eq.trans (hc.completed_eq.trans hsame.covered_eq.symm)
  covered_le := by
    rw [hsame.covered_eq, hsame.requested_eq]
    exact hc.covered_le
  inHand u hu := by
    rw [hidle] at hu
    cases hu

/-- A turn keeps the tickets counted. -/
theorem Turn.counted (h : Turn d calls d' calls') (hc : d.Counted) : d'.Counted := by
  cases h with
  | read _ _ huncounted hsame => exact hc.same hsame (Phase.ticket?_of_isUncounted huncounted)
  | rest _ _ hidle' _ _ hsame => exact hc.same hsame hidle'
  | undue => exact hc.same ⟨rfl, rfl, rfl⟩ rfl
  | due _ hdue =>
      refine ⟨hc.completed_eq, hc.covered_le, fun u hu => ?_⟩
      cases hu
      exact ⟨hdue, Nat.le_refl _⟩
  | flush hphase | flushOn hphase =>
      refine ⟨hc.completed_eq, hc.covered_le, fun u hu => hc.inHand u ?_⟩
      rw [Phase.ticket?_afterFlush] at hu
      rw [hphase]
      exact hu
  | store hphase =>
      refine ⟨rfl, (hc.inHand _ (congrArg Phase.ticket? hphase)).2, fun u hu => ?_⟩
      cases hu

/-- What is flushed stays so, and what is in hand gets flushed. -/
theorem Turn.secured (h : Turn d calls d' calls') (hc : d.Counted) (hs : d.Secured t) :
    d'.Secured t := by
  have hidle : d.phase.ticket? = none → t ≤ d.completed := fun hidle => by
    rcases hs with hs | ⟨u, hu, -⟩
    · exact hs
    · rw [hidle] at hu
      cases hu
  cases h with
  | read hnone _ _ hsame | rest hnone _ _ _ _ hsame =>
      exact .inl (hsame.completed_eq ▸ hidle hnone)
  | undue hphase | due hphase => exact .inl (hidle (congrArg Phase.ticket? hphase))
  | flush hphase | flushOn hphase =>
      refine hs.imp id fun ⟨u, hu, hle⟩ => ⟨u, ?_, hle⟩
      rw [hphase] at hu
      rw [Phase.ticket?_afterFlush]
      exact hu
  | @store handled u hphase =>
      have hu : d.phase.ticket? = some u := congrArg Phase.ticket? hphase
      rcases hs with hs | ⟨u', hu', hle⟩
      · have := (hc.inHand u hu).1
        have := hc.completed_eq
        exact .inl (by show t ≤ u; omega)
      · rw [hu] at hu'
        cases hu'
        exact .inl hle

/-- Once tickets are counted, all that were given out are secured. -/
theorem Turn.secured_of_isCounting (h : Turn d calls d' calls') (hc : d.Counted)
    (hcounting : d.phase.isCounting = true) (ht : t ≤ d.requested) : d'.Secured t := by
  cases h with
  | read _ hearly =>
      rw [hearly] at hcounting
      cases hcounting
  | rest _ hcounted =>
      cases hphase : d.phase with
      | checking _ =>
          rw [hphase] at hcounted
          cases hcounted
      | _ =>
          rw [hphase] at hcounting
          cases hcounting
  | undue _ hundue =>
      exact .inl (Nat.le_trans ht (Nat.le_trans hundue (Nat.le_of_eq hc.completed_eq.symm)))
  | due => exact .inr ⟨_, rfl, ht⟩
  | flush hphase | flushOn hphase | store hphase =>
      rw [hphase] at hcounting
      cases hcounting

/-- Only a dispatcher that has closed its ring leaves. -/
theorem Turn.closed_of_isGone (h : Turn d calls d' calls')
    (hleft : d.phase.isGone = true → d.closed = true) (hgone' : d'.phase.isGone = true) :
    d'.closed = true := by
  cases h with
  | read _ _ huncounted =>
      rw [(Phase.ticket?_of_isGone hgone').2] at huncounted
      cases huncounted
  | rest _ _ _ hclosed hgone => exact hclosed.trans ((hgone hgone').elim id hleft)
  | undue | due | store => cases hgone'
  | flush | flushOn =>
      have hidle := (Phase.ticket?_of_isGone hgone').1
      rw [Phase.ticket?_afterFlush] at hidle
      cases hidle

/-- A ticket that a dispatcher gave out before it closed its ring is not
left behind: after closing it still has to count, or has secured it. -/
def Kept (t : Nat) (d : Dispatcher) : Prop :=
  d.closed = true → d.phase.isUncounted = true ∨ d.Secured t

/-- It leaves no ticket behind. -/
theorem Turn.kept (h : Turn d calls d' calls') (hc : d.Counted) (ht : t ≤ d.requested)
    (hk : d.Kept t) : d'.Kept t := by
  intro hclosed'
  cases hcounting : d.phase.isCounting with
  | true => exact .inr (h.secured_of_isCounting hc hcounting ht)
  | false =>
      have hsecured : d.closed = true → d.phase.isUncounted = false → d'.Secured t := by
        intro hclosed hcounted
        refine h.secured hc ((hk hclosed).resolve_left fun hu => ?_)
        rw [hcounted] at hu
        cases hu
      cases h with
      | read _ _ huncounted => exact .inl huncounted
      | rest _ hcounted _ hclosed =>
          exact .inr (hsecured (hclosed.symm.trans hclosed') hcounted)
      | undue hphase | due hphase =>
          rw [hphase] at hcounting
          cases hcounting
      | flush hphase | flushOn hphase | store hphase =>
          exact .inr (hsecured hclosed' (congrArg Phase.isUncounted hphase))

/-- A flush that was found due is begun once, and no other is. -/
theorem Turn.flushCalls_eq (h : Turn d calls d' calls') :
    flushCalls calls' + d'.phase.owesFlush.toNat
      = flushCalls calls + d.phase.owesFlush.toNat
        + (d.phase.isCounting && decide (d.covered < d.requested)).toNat := by
  cases h with
  | read hidle hearly huncounted _ _ hflushes =>
      rw [hflushes, Phase.owesFlush_of_ticket? hidle, hearly,
        Phase.owesFlush_of_ticket? (Phase.ticket?_of_isUncounted huncounted)]
      rfl
  | rest hidle hcounted hidle' _ _ _ _ hflushes =>
      have hearly : d.phase.isCounting = false := by
        cases hphase : d.phase <;> first | rfl | (rw [hphase] at hcounted; cases hcounted)
      rw [hflushes, Phase.owesFlush_of_ticket? hidle, hearly, Phase.owesFlush_of_ticket? hidle']
      rfl
  | undue hphase hundue =>
      rw [hphase, decide_eq_false (Nat.not_lt.2 hundue)]
      rfl
  | due hphase hdue =>
      rw [hphase, decide_eq_true hdue]
      rfl
  | flush hphase =>
      rw [hphase, Phase.owesFlush_afterFlush, flushCalls_concat_flush]
      rfl
  | flushOn hphase hcalls =>
      rw [hphase, Phase.owesFlush_afterFlush, flushCalls_wentOn hcalls]
      rfl
  | store hphase =>
      rw [hphase]
      rfl

-- =========================================================== awaiting

/-- The call that flushes for the ticket in hand came after the first `n`. -/
def FlushBegan (n : Nat) (calls : List HandlerCall) : Phase → Prop
  | .heldInFlush .. => n < calls.length
  | .storing .. => FlushedSince n calls
  | _ => True

/-- What is known of ticket `t` from when it was given out, after `n` calls. -/
structure Awaited (t n : Nat) (d : Dispatcher) (calls : List HandlerCall) : Prop where
  requested : t ≤ d.requested
  length_le : n ≤ calls.length
  flushed : t ≤ d.completed → FlushedSince n calls
  inHand : ∀ u, d.phase.ticket? = some u → t ≤ u → FlushBegan n calls d.phase

/-- The call has come this far, and is the last one. -/
theorem flushBegan_afterFlush {init : List HandlerCall} (hn : n ≤ init.length)
    (hover : ∀ c ∈ init, c.hasEnded = true) (handled : Bool) (u : Nat)
    (reports : List StatusEntry) (outcome : Option Outcome) :
    FlushBegan n (init ++ [⟨.flush, reports, outcome⟩]) (.afterFlush handled u outcome) := by
  cases outcome with
  | none =>
      show n < (init ++ [_]).length
      rw [List.length_append]
      exact Nat.lt_succ_of_le hn
  | some o => exact ⟨init, _, [], rfl, hn, rfl, rfl, hover⟩

/-- A ticket that was just given out is above what is flushed and what is in hand. -/
theorem awaited_requestFlush (hc : d.Counted) (calls : List HandlerCall) :
    Awaited d.requestFlush.1 calls.length d.requestFlush.2 calls where
  requested := Nat.le_refl _
  length_le := Nat.le_refl _
  flushed hdone := by
    have hle : d.completed ≤ d.requested := hc.completed_eq ▸ hc.covered_le
    exact absurd hdone (Nat.not_le.2 (Nat.lt_succ_of_le hle))
  inHand u hu hle := absurd (hc.inHand u hu).2 (Nat.not_le.2 hle)

/-- With no ticket in hand there is nothing more to know. -/
theorem Awaited.same (ha : Awaited t n d calls) (hsame : SameTickets d d')
    (hidle : d'.phase.ticket? = none) (hgrown : Grown calls calls') : Awaited t n d' calls' where
  requested := hsame.requested_eq ▸ ha.requested
  length_le := Nat.le_trans ha.length_le hgrown.length_le
  flushed ht := hgrown.flushedSince (ha.flushed (hsame.completed_eq ▸ ht))
  inHand u hu := by
    rw [hidle] at hu
    cases hu

/-- What is known of a ticket is known after the turn. -/
theorem Turn.awaited (h : Turn d calls d' calls') (ha : Awaited t n d calls) :
    Awaited t n d' calls' := by
  cases h with
  | read _ _ huncounted hsame hgrown =>
      exact ha.same hsame (Phase.ticket?_of_isUncounted huncounted) hgrown
  | rest _ _ hidle' _ _ hsame hgrown => exact ha.same hsame hidle' hgrown
  | undue => exact ha.same ⟨rfl, rfl, rfl⟩ rfl .same
  | due => exact ⟨ha.requested, ha.length_le, ha.flushed, fun _ _ _ => trivial⟩
  | @flush handled u reports outcome hphase hover =>
      have hgrown : Grown calls (calls ++ [⟨.flush, reports, outcome⟩]) := .begun _
      exact ⟨ha.requested, Nat.le_trans ha.length_le hgrown.length_le,
        fun ht => hgrown.flushedSince (ha.flushed ht),
        fun _ _ _ => flushBegan_afterFlush ha.length_le hover _ _ _ _⟩
  | @flushOn handled u init soFar reports outcome hphase hcalls hover =>
      have hgrown : Grown calls (init ++ [⟨.flush, reports, outcome⟩]) := .wentOn hcalls
      refine ⟨ha.requested, Nat.le_trans ha.length_le hgrown.length_le,
        fun ht => hgrown.flushedSince (ha.flushed ht), fun u' hu' hle => ?_⟩
      rw [Phase.ticket?_afterFlush, ← show d.phase.ticket? = some u from
        congrArg Phase.ticket? hphase] at hu'
      have hbegan := ha.inHand u' hu' hle
      rw [hphase] at hbegan
      have hlt : n < calls.length := hbegan
      rw [hcalls, List.length_append] at hlt
      exact flushBegan_afterFlush (Nat.le_of_lt_succ hlt) hover _ _ _ _
  | @store handled u hphase =>
      refine ⟨ha.requested, ha.length_le, fun ht => ?_, fun _ hu => by cases hu⟩
      have hbegan := ha.inHand u (congrArg Phase.ticket? hphase) ht
      rw [hphase] at hbegan
      exact hbegan

-- =============================================================== steps

section

variable {H : Type} {x : Call (Noted H)} {s s' : Shared (Noted H)}

/-- Whatever a call about an event comes to, the pass goes on reading. -/
theorem turn_afterEvent {c c' : Dispatcher} (hidle : d.phase.ticket? = none)
    (hearly : d.phase.isCounting = false) (hafter : afterEvent x c s = (c', s'))
    (hsame : SameTickets d c) (hgrown : Grown calls x.state.calls)
    (hflushes : flushCalls x.state.calls = flushCalls calls) :
    Turn d calls c' s'.handler.calls := by
  rw [show s'.handler = x.state from
    (congrArg (·.2.handler) hafter).symm.trans (handler_afterEvent x c s)]
  unfold afterEvent at hafter
  cases ho : x.outcome <;> rw [ho] at hafter <;> cases hafter <;>
    exact .read hidle hearly rfl ⟨hsame.requested_eq, hsame.covered_eq, hsame.completed_eq⟩ hgrown
      hflushes

/-- A call to flush leads to storing its ticket, or is held up. -/
theorem phase_afterFlush {handled : Bool} {u : Nat}
    (hafter : afterFlush handled u x d s = (d', s')) :
    d' = { d with phase := .afterFlush handled u x.outcome } ∧ s'.handler = x.state := by
  unfold afterFlush at hafter
  cases ho : x.outcome <;> rw [ho] at hafter <;> cases hafter <;> exact ⟨rfl, rfl⟩

/-- The end of the stop is a turn that leaves the tickets alone. -/
theorem turn_afterStop (hgone : d.phase.isGone = true) (hafter : afterStop x d s = (d', s'))
    (hgrown : Grown calls x.state.calls)
    (hflushes : flushCalls x.state.calls = flushCalls calls) :
    Turn d calls d' s'.handler.calls := by
  obtain ⟨hidle, hcounted⟩ := Phase.ticket?_of_isGone hgone
  rw [show s'.handler = x.state from
    (congrArg (·.2.handler) hafter).symm.trans (handler_afterStop x d s)]
  unfold afterStop at hafter
  cases ho : x.outcome <;> rw [ho] at hafter <;> cases hafter <;>
    exact .rest hidle hcounted rfl rfl (fun _ => .inr hgone) ⟨rfl, rfl, rfl⟩ hgrown hflushes

end

end Dispatcher

namespace Service

open Dispatcher

variable {H : Type} {hh : Handler H} {m₀ : Metrics} {l₀ : StatusLog} {sv : Service (Noted H)}
  {d : Dispatcher} {s : Shared (Noted H)}

/-- A step of the dispatcher is one of the turns. -/
theorem turn_of_step (hinv : sv.Inv m₀ l₀)
    (hs : sv.dispatcher.step hh.noted sv.shared = some (d, s)) :
    Turn sv.dispatcher sv.calls d s.handler.calls := by
  -- the phases without a ticket in hand, and those outside of counting
  have hidle {p : Phase} (hp : sv.dispatcher.phase = p) (hnone : p.ticket? = none) :
      sv.dispatcher.phase.ticket? = none := hp ▸ hnone
  have hcounted {p : Phase} (hp : sv.dispatcher.phase = p) (hno : p.isUncounted = false) :
      sv.dispatcher.phase.isUncounted = false := hp ▸ hno
  have hearly {p : Phase} (hp : sv.dispatcher.phase = p) (hno : p.isCounting = false) :
      sv.dispatcher.phase.isCounting = false := hp ▸ hno
  cases stepped_of_step hs with
  | close hp | drain hp | dry hp =>
      exact .read (hidle hp rfl) (hearly hp rfl) rfl ⟨rfl, rfl, rfl⟩ .same rfl
  | event hp _ hafter =>
      exact turn_afterEvent (hidle hp rfl) (hearly hp rfl) hafter ⟨rfl, rfl, rfl⟩ (.begun _)
        (flushCalls_concat rfl)
  | eventOn hp hc hafter =>
      -- the call that is held up is the last one, and goes on in its place
      obtain ⟨init, slot, endOfBatch, soFar, -, hcalls⟩ := (hinv.inPhase hp).2.1
      have hnew := Handler.calls_resumed hc hcalls
      refine turn_afterEvent (hidle hp rfl) (hearly hp rfl) hafter ⟨rfl, rfl, rfl⟩ ?_ ?_
      · rw [hnew]
        exact .wentOn hcalls
      · rw [hnew]
        exact flushCalls_wentOn hcalls
  | due hp hdue => exact .due hp hdue
  | undue hp hundue => exact .undue hp (Nat.not_lt.1 hundue)
  | flush hp hafter =>
      obtain ⟨rfl, hstate⟩ := phase_afterFlush hafter
      rw [hstate]
      exact .flush hp (hinv.inPhase hp).2.1.2
  | flushOn hp hc hafter =>
      obtain ⟨init, soFar, hinit, hcalls⟩ := (hinv.inPhase hp).2.1
      obtain ⟨rfl, hstate⟩ := phase_afterFlush hafter
      rw [hstate, Handler.calls_resumed hc hcalls]
      exact .flushOn hp hcalls hinit.2
  | store hp => exact .store hp
  | again hp =>
      exact .rest (hidle hp rfl) (hcounted hp rfl) rfl rfl (fun hgone => by cases hgone)
        ⟨rfl, rfl, rfl⟩ .same rfl
  | leave hp hclosed | giveUp hp hclosed =>
      exact .rest (hidle hp rfl) (hcounted hp rfl) rfl rfl (fun _ => .inl hclosed)
        ⟨rfl, rfl, rfl⟩ .same rfl
  | depart hp =>
      exact .rest (hidle hp rfl) (hcounted hp rfl) rfl rfl (fun _ => .inr (congrArg _ hp))
        ⟨rfl, rfl, rfl⟩ .same rfl
  | stop hp hafter =>
      exact turn_afterStop (congrArg Phase.isGone hp) hafter (.begun _) (flushCalls_concat rfl)
  | stopOn hp hc hafter =>
      obtain ⟨init, soFar, -, hcalls⟩ := (hinv.inPhase hp).2.1
      have hnew := Handler.calls_resumed hc hcalls
      refine turn_afterStop (congrArg Phase.isGone hp) hafter ?_ ?_
      · rw [hnew]
        exact .wentOn hcalls
      · rw [hnew]
        exact flushCalls_wentOn hcalls

end Service

end LogPipeline
