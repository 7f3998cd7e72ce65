/-
The calls that a dispatcher makes on its handler, and what becomes of
them in the books. `Handler.noted` is the handler with a list of the
calls made on it; a dispatcher works on it exactly as on the handler
itself (`step_noted`), so all that a dispatcher does to a handler can be
read off the list.

`Booked` is what metrics and status log have to say of such a list: the
counters count it, and the log has, call by call, what the handler
reported and what the dispatcher adds. A call enters the list when it
begins and is amended when it goes on, so there is one lemma for each of
these: `Booked.begun`, `Booked.absorbed`, `Booked.ended`.
-/
import LogPipeline.Dispatcher

namespace LogPipeline

/-- A call that did not end well is told of in one entry, an error. -/
theorem Dispatcher.complaint_spec (failed panicked after : String) (o : Outcome) :
    (complaint failed panicked after o).length = (if !o.isDone then 1 else 0)
      ∧ ∀ e ∈ complaint failed panicked after o, e.level = .error ∧ e.component = component := by
  cases o with
  | done => exact ⟨rfl, fun e he => by cases he⟩
  | failed err =>
      refine ⟨rfl, fun e he => ?_⟩
      rw [List.mem_singleton.1 he]
      exact ⟨rfl, rfl⟩
  | panicked message =>
      refine ⟨rfl, fun e he => ?_⟩
      rw [List.mem_singleton.1 he]
      exact ⟨rfl, rfl⟩

-- =============================================================== calls

/-- What a handler is called for. -/
inductive Task where
  | event (slot : EventSlot) (endOfBatch : Bool)
  | flush
  | shutdown

namespace Task

/-- The event that the handler is shown. -/
def slot? : Task → Option EventSlot
  | event slot _ => some slot
  | _ => none

def isEvent : Task → Bool
  | event .. => true
  | _ => false

def isShutdown : Task → Bool
  | shutdown => true
  | _ => false

def endsBatch : Task → Bool
  | event _ endOfBatch => endOfBatch
  | _ => false

/-- What the dispatcher says of the outcome. -/
def complaint : Task → Outcome → List StatusEntry
  | event .. => Dispatcher.eventComplaint
  | flush => Dispatcher.flushComplaint
  | shutdown => Dispatcher.stopComplaint

end Task

/-- A call of a handler, as far as it has come. -/
structure HandlerCall where
  task : Task
  /-- What the handler has reported in its course. -/
  reports : List StatusEntry
  /-- How it ended, if it has. -/
  outcome : Option Outcome

namespace HandlerCall

def hasEnded (c : HandlerCall) : Bool := c.outcome.isSome

/-- The call ended with an error or a panic. -/
def wentWrong (c : HandlerCall) : Bool := c.outcome.any fun o => !o.isDone

/-- The handler took the event. -/
def delivered (c : HandlerCall) : Bool := c.task.isEvent && c.outcome.any Outcome.isDone

/-- The handler failed or panicked on the event. -/
def failed (c : HandlerCall) : Bool := c.task.isEvent && c.wentWrong

/-- What the dispatcher has said of the call. -/
def complaint (c : HandlerCall) : List StatusEntry := c.outcome.elim [] c.task.complaint

/-- All that the status log has of the call. -/
def entries (c : HandlerCall) : List StatusEntry := c.reports ++ c.complaint

/-- The call goes on, and comes to this. -/
def goOn {H : Type} (x : Call H) (c : HandlerCall) : HandlerCall :=
  ⟨c.task, c.reports ++ x.reports, x.outcome⟩

/-- Of a call that went wrong the dispatcher says one thing, an error;
of others it says nothing. -/
theorem complaint_spec (c : HandlerCall) :
    c.complaint.length = (if c.wentWrong then 1 else 0)
      ∧ ∀ e ∈ c.complaint, e.level = .error ∧ e.component = Dispatcher.component := by
  obtain ⟨task, reports, outcome⟩ := c
  cases outcome with
  | none => exact ⟨rfl, fun e he => by cases he⟩
  | some o => cases task <;> exact Dispatcher.complaint_spec _ _ _ o

end HandlerCall

-- ============================================================== books

/-- The counters once these calls were made. -/
def Metrics.after (m : Metrics) (calls : List HandlerCall) : Metrics :=
  { m with
    delivered := m.delivered + calls.countP HandlerCall.delivered
    failures := m.failures + calls.countP HandlerCall.failed
    endOfBatch := m.endOfBatch + calls.countP (·.task.endsBatch) }

theorem StatusLog.logAll_append (s : StatusLog) (as bs : List StatusEntry) :
    s.logAll (as ++ bs) = (s.logAll as).logAll bs := List.foldl_append

/-- What is told of sequences that were left behind, if any were. -/
def leftBehind (n : Nat) : List StatusEntry :=
  if n = 0 then [] else [Dispatcher.abandonNotice n]

/-- All that the status log has of these calls. What was left behind is
told before the handler is shut down. -/
def bookedEntries (abandoned : Nat) (calls : List HandlerCall) : List StatusEntry :=
  (calls.filter (!·.task.isShutdown)).flatMap HandlerCall.entries ++ leftBehind abandoned
    ++ (calls.filter (·.task.isShutdown)).flatMap HandlerCall.entries

/-- Metrics and status log, from `m₀` and `l₀` on, say what is to be said
of the calls. -/
structure Booked (m₀ : Metrics) (l₀ : StatusLog) (abandoned : Nat)
    (calls : List HandlerCall) {X : Type} (s : Shared X) : Prop where
  metrics_eq : s.metrics = m₀.after calls
  status_eq : s.status = l₀.logAll (bookedEntries abandoned calls)

/-- None of the calls shuts the handler down. -/
def NoShutdown (calls : List HandlerCall) : Prop := ∀ c ∈ calls, c.task.isShutdown = false

section

variable {m₀ : Metrics} {l₀ : StatusLog} {abandoned : Nat} {X : Type} {s : Shared X}
  {init : List HandlerCall} {c : HandlerCall} {soFar : List StatusEntry}

/-- Before the handler is shut down, entries come in at the end. -/
theorem bookedEntries_concat (hinit : NoShutdown init)
    (hlate : c.task.isShutdown = false → abandoned = 0) :
    bookedEntries abandoned (init ++ [c]) = bookedEntries abandoned init ++ c.entries := by
  have hnone : init.filter (·.task.isShutdown) = [] :=
    List.filter_eq_nil_iff.2 fun c' hc' => Bool.eq_false_iff.1 (hinit c' hc')
  unfold bookedEntries
  rw [List.filter_append, List.filter_append, hnone]
  cases hc : c.task.isShutdown with
  | true => simp [hc]
  | false => simp [hc, hlate hc, leftBehind]

/-- A call begins. Whether it ends a batch is counted at once. -/
theorem Booked.begun (h : Booked m₀ l₀ abandoned init s) (hinit : NoShutdown init)
    (task : Task) (hlate : task.isShutdown = false → abandoned = 0) :
    Booked m₀ l₀ abandoned (init ++ [⟨task, [], none⟩])
      (if task.endsBatch then { s with metrics := s.metrics.count .endOfBatch } else s) := by
  have hentries : bookedEntries abandoned (init ++ [⟨task, [], none⟩])
      = bookedEntries abandoned init :=
    (bookedEntries_concat hinit hlate).trans (List.append_nil _)
  refine ⟨?_, ?_⟩
  · cases he : task.endsBatch with
    | true =>
        simp [h.metrics_eq, Metrics.after, Metrics.count, HandlerCall.delivered,
          HandlerCall.failed, HandlerCall.wentWrong, he, Nat.add_assoc]
    | false =>
        simp [h.metrics_eq, Metrics.after, HandlerCall.delivered, HandlerCall.failed,
          HandlerCall.wentWrong, he]
  · rw [hentries, ← h.status_eq]
    split <;> rfl

/-- The handler reports, and its call is not over. -/
theorem Booked.absorbed (h : Booked m₀ l₀ abandoned (init ++ [c]) s) (hinit : NoShutdown init)
    (hlate : c.task.isShutdown = false → abandoned = 0) (hc : c.outcome = none) (x : Call X) :
    Booked m₀ l₀ abandoned (init ++ [⟨c.task, c.reports ++ x.reports, none⟩])
      (Dispatcher.absorb x s) := by
  refine ⟨h.metrics_eq.trans ?_, ?_⟩
  · simp [Metrics.after, HandlerCall.delivered, HandlerCall.failed, HandlerCall.wentWrong, hc]
  · have hnew : bookedEntries abandoned (init ++ [⟨c.task, c.reports ++ x.reports, none⟩]) = _ :=
      bookedEntries_concat hinit hlate
    show s.status.logAll x.reports = _
    rw [h.status_eq, bookedEntries_concat hinit hlate, hnew, ← StatusLog.logAll_append]
    simp [HandlerCall.entries, HandlerCall.complaint, hc]

/-- The call is over, and what there is to say of its end is said. -/
theorem Booked.ended (h : Booked m₀ l₀ abandoned (init ++ [c]) s) (hinit : NoShutdown init)
    (hlate : c.task.isShutdown = false → abandoned = 0) (hc : c.outcome = none) (o : Outcome) :
    Booked m₀ l₀ abandoned (init ++ [{ c with outcome := some o }])
      (Dispatcher.report (c.task.complaint o)
        (if c.task.isEvent then { s with metrics := s.metrics.count (Dispatcher.tally o) }
          else s)) := by
  refine ⟨?_, ?_⟩
  · cases he : c.task.isEvent with
    | true =>
        cases o <;>
          simp [Dispatcher.report, h.metrics_eq, Metrics.after, Metrics.count, Dispatcher.tally,
            HandlerCall.delivered, HandlerCall.failed, HandlerCall.wentWrong, Outcome.isDone,
            he, hc, Nat.add_assoc]
    | false =>
        simp [Dispatcher.report, h.metrics_eq, Metrics.after, HandlerCall.delivered,
          HandlerCall.failed, he]
  · have hstatus : (if c.task.isEvent then
        { s with metrics := s.metrics.count (Dispatcher.tally o) } else s).status = s.status := by
      split <;> rfl
    have hnew : bookedEntries abandoned (init ++ [{ c with outcome := some o }]) = _ :=
      bookedEntries_concat hinit hlate
    show StatusLog.logAll _ _ = _
    rw [hstatus, h.status_eq, bookedEntries_concat hinit hlate, hnew, ← StatusLog.logAll_append]
    simp [HandlerCall.entries, HandlerCall.complaint, hc]

/-- What was left behind is told once, before the handler is shut down. -/
theorem Booked.left {calls : List HandlerCall} (h : Booked m₀ l₀ 0 calls s)
    (hcalls : NoShutdown calls) (n : Nat) :
    Booked m₀ l₀ n calls (Dispatcher.report (leftBehind n) s) := by
  have hnone : calls.filter (·.task.isShutdown) = [] :=
    List.filter_eq_nil_iff.2 fun c' hc' => Bool.eq_false_iff.1 (hcalls c' hc')
  refine ⟨h.metrics_eq, ?_⟩
  show s.status.logAll (leftBehind n) = _
  rw [h.status_eq, ← StatusLog.logAll_append]
  unfold bookedEntries
  rw [hnone]
  simp [leftBehind]

end

-- ============================================================== notes

/-- The state of a handler, and the calls made on it. -/
structure Noted (H : Type) where
  state : H
  calls : List HandlerCall

namespace Noted

variable {H : Type}

/-- A call begins, and comes to this. -/
def note (task : Task) (x : Call H) (calls : List HandlerCall) : Call (Noted H) :=
  ⟨x.outcome, x.reports, ⟨x.state, calls ++ [⟨task, x.reports, x.outcome⟩]⟩⟩

/-- The last call goes on, and comes to this. -/
def amend (x : Call H) (calls : List HandlerCall) : Call (Noted H) :=
  ⟨x.outcome, x.reports,
    ⟨x.state, calls.dropLast ++ calls.getLast?.toList.map (·.goOn x)⟩⟩

theorem amend_concat (x : Call H) (init : List HandlerCall) (c : HandlerCall) :
    amend x (init ++ [c]) = ⟨x.outcome, x.reports, ⟨x.state, init ++ [c.goOn x]⟩⟩ := by
  simp [amend]

end Noted

/-- The handler, with a note of every call. -/
def Handler.noted {H : Type} (h : Handler H) : Handler (Noted H) where
  onEvent slot endOfBatch n :=
    Noted.note (.event slot endOfBatch) (h.onEvent slot endOfBatch n.state) n.calls
  onFlush n := Noted.note .flush (h.onFlush n.state) n.calls
  onShutdown n := Noted.note .shutdown (h.onShutdown n.state) n.calls
  resume n := (h.resume n.state).map fun x => Noted.amend x n.calls

/-- A call that goes on is the last that was noted. -/
theorem Handler.calls_resumed {H : Type} {h : Handler H} {n : Noted H} {c : Call (Noted H)}
    {init : List HandlerCall} {task : Task} {soFar : List StatusEntry}
    (hc : h.noted.resume n = some c) (hcalls : n.calls = init ++ [⟨task, soFar, none⟩]) :
    c.state.calls = init ++ [⟨task, soFar ++ c.reports, c.outcome⟩] := by
  obtain ⟨x, -, hx⟩ := Option.map_eq_some_iff.1 hc
  rw [← hx, hcalls, Noted.amend_concat]
  rfl

namespace Shared

variable {H : Type}

/-- Begin to take notes. -/
def noted (s : Shared H) : Shared (Noted H) := ⟨s.metrics, s.status, ⟨s.handler, []⟩⟩

/-- The same without the notes. -/
def plain (s : Shared (Noted H)) : Shared H := ⟨s.metrics, s.status, s.handler.state⟩

end Shared

namespace Dispatcher

variable {H : Type}

/-- A step's result, without the notes. -/
def plainly (o : Dispatcher × Shared (Noted H)) : Dispatcher × Shared H := (o.1, o.2.plain)

theorem plainly_afterEvent (x : Call H) (calls : List HandlerCall) (d : Dispatcher)
    (s : Shared (Noted H)) :
    plainly (afterEvent ⟨x.outcome, x.reports, ⟨x.state, calls⟩⟩ d s)
      = afterEvent x d s.plain := by
  unfold afterEvent
  cases x.outcome <;> rfl

theorem plainly_afterFlush (handled : Bool) (ticket : Nat) (x : Call H)
    (calls : List HandlerCall) (d : Dispatcher) (s : Shared (Noted H)) :
    plainly (afterFlush handled ticket ⟨x.outcome, x.reports, ⟨x.state, calls⟩⟩ d s)
      = afterFlush handled ticket x d s.plain := by
  unfold afterFlush
  cases x.outcome <;> rfl

theorem plainly_afterStop (x : Call H) (calls : List HandlerCall) (d : Dispatcher)
    (s : Shared (Noted H)) :
    plainly (afterStop ⟨x.outcome, x.reports, ⟨x.state, calls⟩⟩ d s)
      = afterStop x d s.plain := by
  unfold afterStop
  cases x.outcome <;> rfl

/-- A call that goes on goes on in the same way. -/
theorem resume_noted (h : Handler H) {s : Shared (Noted H)}
    {f : Call (Noted H) → Dispatcher × Shared (Noted H)} {g : Call H → Dispatcher × Shared H}
    (hfg : ∀ x calls, plainly (f ⟨x.outcome, x.reports, ⟨x.state, calls⟩⟩) = g x) :
    ((h.noted.resume s.handler).map f).map plainly = (h.resume s.plain.handler).map g := by
  show ((Option.map _ (h.resume s.handler.state)).map f).map plainly
    = (h.resume s.handler.state).map g
  cases h.resume s.handler.state with
  | none => rfl
  | some x => exact congrArg some (hfg x _)

/-- Taking notes changes nothing about the steps. -/
theorem step_noted (h : Handler H) (d : Dispatcher) (s : Shared (Noted H)) :
    (step h.noted d s).map plainly = step h d s.plain := by
  cases hp : d.phase with
  | top =>
      simp only [step, hp]
      split
      · rfl
      · split <;> rfl
  | draining handled =>
      simp only [step, hp]
      rcases d.ring.tryNext with ⟨_ | ⟨sequence, endOfBatch, slot⟩, r⟩
      · rfl
      · cases endOfBatch <;> exact congrArg some (plainly_afterEvent _ _ _ _)
  | handling =>
      simp only [step, hp]
      exact resume_noted h fun x calls => plainly_afterEvent x calls d s
  | checking handled =>
      simp only [step, hp]
      split <;> rfl
  | flushing handled ticket =>
      simp only [step, hp]
      exact congrArg some (plainly_afterFlush _ _ _ _ _ _)
  | heldInFlush handled ticket =>
      simp only [step, hp]
      exact resume_noted h fun x calls => plainly_afterFlush handled ticket x calls d s
  | storing handled ticket =>
      simp only [step, hp]
      rfl
  | deciding handled =>
      simp only [step, hp]
      split
      · rfl
      · split
        · rfl
        · split <;> rfl
  | leaving =>
      simp only [step, hp]
      rfl
  | stopping =>
      simp only [step, hp]
      exact congrArg some (plainly_afterStop _ _ _ _)
  | heldInStop =>
      simp only [step, hp]
      exact resume_noted h fun x calls => plainly_afterStop x calls d s
  | finished =>
      simp only [step, hp]
      rfl

end Dispatcher

end LogPipeline
