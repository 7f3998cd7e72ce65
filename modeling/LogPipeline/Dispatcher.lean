/-
The dispatcher takes events off the ring, one after another, and shows
them to its handler. It works in passes: look whether a stop was asked
for, drain the ring, serve a flush request, decide whether to go on.

The passes are cut into single steps, so a run in which producers publish
between any two of them is a run of `step`s and ring operations in any
order. `step` gives nothing when the dispatcher rests: it has nothing to
do, its handler is held up in a call, or it has finished. `settle` goes
on until it rests, and time is only thought to pass while it rests; so a
deadline is a flag that whoever waits sets when waiting longer is vain.

Whatever a call of the handler comes to, the dispatcher goes on: errors
and panics are reported and counted.
-/
import LogPipeline.Metrics
import LogPipeline.Ring.Basic
import LogPipeline.Status
import LogPipeline.Text.Duration

namespace LogPipeline

-- ============================================================ handlers

/-- What a call of a handler has come to so far: its outcome, or nothing
yet if it is held up, and what the handler reported meanwhile. -/
structure Call (H : Type) where
  outcome : Option Outcome
  reports : List StatusEntry
  state : H

/-- What a dispatcher drives. A call that is held up goes on with
`resume`, which gives nothing as long as it cannot. -/
structure Handler (H : Type) where
  onEvent : EventSlot → Bool → H → Call H
  onFlush : H → Call H
  onShutdown : H → Call H
  resume : H → Option (Call H)

/-- What a dispatcher shares with those who use it. -/
structure Shared (H : Type) where
  metrics : Metrics
  status : StatusLog
  handler : H

/-- Add reports to the status log, in order. -/
def StatusLog.logAll (s : StatusLog) (entries : List StatusEntry) : StatusLog :=
  entries.foldl (fun s e => s.log e.level e.component e.message) s

-- ========================================================== dispatcher

/-- Where the dispatcher stands in a pass. `handled` tells whether the
pass has shown an event to the handler. -/
inductive Phase where
  | top
  | draining (handled : Bool)
  /-- The handler is held up in an event. -/
  | handling
  | checking (handled : Bool)
  /-- About to flush for all tickets up to this one. -/
  | flushing (handled : Bool) (ticket : Nat)
  | heldInFlush (handled : Bool) (ticket : Nat)
  | storing (handled : Bool) (ticket : Nat)
  | deciding (handled : Bool)
  | leaving
  | stopping
  | heldInStop
  | finished
  deriving DecidableEq

structure Dispatcher where
  ring : Ring
  phase : Phase
  /-- The ring has been closed for the final drain. -/
  closed : Bool
  /-- A stop has been asked for. -/
  stopRequested : Bool
  /-- The deadline of the stop has passed. -/
  expired : Bool
  /-- Somebody still holds the dispatcher and may stop it. -/
  attached : Bool
  /-- The last flush ticket given out. -/
  requested : Nat
  /-- The last ticket a flush was begun for. -/
  covered : Nat
  /-- The last ticket whose flush is known to be over. -/
  completed : Nat
  /-- Sequences left behind when the dispatcher gave up. -/
  abandoned : Nat

namespace Dispatcher

def component : String := "AsyncDispatcher"

/-- A dispatcher on the ring, whose consumer it takes. -/
def start (ring : Ring) : Except LogError Dispatcher :=
  match ring.take with
  | none => .error (.invalidConfiguration component "ring buffer already has a consumer")
  | some ring => .ok {
      ring, phase := .top, closed := false, stopRequested := false, expired := false,
      attached := true, requested := 0, covered := 0, completed := 0, abandoned := 0 }

/-- A dispatcher on a new ring. -/
def onNewRing (size : Nat) : Dispatcher where
  ring := { Ring.ofSize size with taken := true }
  phase := .top
  closed := false
  stopRequested := false
  expired := false
  attached := true
  requested := 0
  covered := 0
  completed := 0
  abandoned := 0

/-- A new ring has no consumer yet, so a dispatcher always starts on it. -/
theorem start_ofSize (size : Nat) : start (.ofSize size) = .ok (.onNewRing size) := rfl

def isFinished (d : Dispatcher) : Bool := d.phase == .finished

def isRunning (d : Dispatcher) : Bool := d.attached && !d.isFinished

/-- Ask for a flush: its ticket. -/
def requestFlush (d : Dispatcher) : Nat × Dispatcher :=
  (d.requested + 1, { d with requested := d.requested + 1 })

/-- The flush of a ticket is over. -/
def isFlushed (d : Dispatcher) (ticket : Nat) : Bool := ticket ≤ d.completed

/-- A pass from the top would change nothing. -/
def isIdle (d : Dispatcher) : Bool :=
  (d.closed || !d.stopRequested) && !d.ring.hasAvailable && d.requested ≤ d.covered
    && !(d.closed && (d.ring.isCaughtUp || d.expired))

-- =========================================================== reporting

/-- What is said of a call that did not end well. -/
def complaint (failed panicked after : String) : Outcome → List StatusEntry
  | .done => []
  | .failed e => [⟨.error, component, failed ++ ": " ++ e.message⟩]
  | .panicked message => [⟨.error, component, panicked ++ ": " ++ message ++ after⟩]

def eventComplaint : Outcome → List StatusEntry :=
  complaint "event handler failed" "event handler panicked" ". Dispatching continues."

def flushComplaint : Outcome → List StatusEntry :=
  complaint "handler flush failed" "handler panicked during flush" ""

def stopComplaint : Outcome → List StatusEntry :=
  complaint "handler shutdown failed" "handler panicked during shutdown" ""

def abandonNotice (n : Nat) : StatusEntry :=
  ⟨.warn, component, Nat.repr n ++ " claimed events were never published and are abandoned"⟩

/-- How a call about an event counts. -/
def tally : Outcome → Counter
  | .done => .delivered
  | _ => .failures

variable {H : Type}

/-- Take over what a call has come to so far. -/
def absorb (c : Call H) (s : Shared H) : Shared H :=
  { s with handler := c.state, status := s.status.logAll c.reports }

def report (entries : List StatusEntry) (s : Shared H) : Shared H :=
  { s with status := s.status.logAll entries }

/-- The handler has worked, or is held up, on the event that is lent. -/
def afterEvent (c : Call H) (d : Dispatcher) (s : Shared H) : Dispatcher × Shared H :=
  let s := absorb c s
  match c.outcome with
  | none => ({ d with phase := .handling }, s)
  | some o =>
    ({ d with phase := .draining true, ring := d.ring.release },
      report (eventComplaint o) { s with metrics := s.metrics.count (tally o) })

def afterFlush (handled : Bool) (ticket : Nat) (c : Call H) (d : Dispatcher) (s : Shared H) :
    Dispatcher × Shared H :=
  let s := absorb c s
  match c.outcome with
  | none => ({ d with phase := .heldInFlush handled ticket }, s)
  | some o => ({ d with phase := .storing handled ticket }, report (flushComplaint o) s)

def afterStop (c : Call H) (d : Dispatcher) (s : Shared H) : Dispatcher × Shared H :=
  let s := absorb c s
  match c.outcome with
  | none => ({ d with phase := .heldInStop }, s)
  | some o => ({ d with phase := .finished }, report (stopComplaint o) s)

-- =============================================================== steps

/-- One step, or nothing if the dispatcher rests. -/
def step (h : Handler H) (d : Dispatcher) (s : Shared H) : Option (Dispatcher × Shared H) :=
  match d.phase with
  | .top =>
    if d.isIdle then none
    else if d.stopRequested && !d.closed then
      some ({ d with ring := d.ring.close, closed := true, phase := .draining false }, s)
    else some ({ d with phase := .draining false }, s)
  | .draining handled =>
    match d.ring.tryNext with
    | (none, ring) => some ({ d with ring, phase := .checking handled }, s)
    | (some e, ring) =>
      let s := if e.endOfBatch then { s with metrics := s.metrics.count .endOfBatch } else s
      some (afterEvent (h.onEvent e.slot e.endOfBatch s.handler) { d with ring } s)
  | .handling => (h.resume s.handler).map (afterEvent · d s)
  | .checking handled =>
    if d.covered < d.requested then some ({ d with phase := .flushing handled d.requested }, s)
    else some ({ d with phase := .deciding handled }, s)
  | .flushing handled ticket => some (afterFlush handled ticket (h.onFlush s.handler) d s)
  | .heldInFlush handled ticket => (h.resume s.handler).map (afterFlush handled ticket · d s)
  | .storing handled ticket =>
    some ({ d with covered := ticket, completed := ticket, phase := .deciding handled }, s)
  | .deciding handled =>
    if handled || !d.closed then some ({ d with phase := .top }, s)
    else if d.ring.isCaughtUp then some ({ d with phase := .leaving }, s)
    else if d.expired then
      some ({ d with abandoned := d.ring.backlog, phase := .leaving },
        report [abandonNotice d.ring.backlog] s)
    else some ({ d with phase := .top }, s)
  | .leaving => some ({ d with ring := d.ring.close.untake, phase := .stopping }, s)
  | .stopping => some (afterStop (h.onShutdown s.handler) d s)
  | .heldInStop => (h.resume s.handler).map (afterStop · d s)
  | .finished => none

/-- At most `fuel` steps. -/
def settleFor (h : Handler H) : (fuel : Nat) → Dispatcher → Shared H → Dispatcher × Shared H
  | 0, d, s => (d, s)
  | fuel + 1, d, s =>
    match step h d s with
    | some (d, s) => settleFor h fuel d s
    | none => (d, s)

/-- Steps enough for the dispatcher to come to rest when nobody publishes:
one for each event, and a few passes. -/
def enough (d : Dispatcher) : Nat := d.ring.backlog + 32

/-- Go on until the dispatcher rests. -/
def settle (h : Handler H) (d : Dispatcher) (s : Shared H) : Dispatcher × Shared H :=
  settleFor h d.enough d s

-- ============================================================ stopping

/-- Milliseconds granted after the deadline for the last flush. -/
def grace : Nat := 500

def lateNotice (timeout : Nat) : StatusEntry :=
  ⟨.warn, component, "dispatcher thread did not finish within "
    ++ Text.duration (timeout + grace) ++ ". Some events may be lost."⟩

/-- Ask the dispatcher to stop. -/
def requestStop (d : Dispatcher) : Dispatcher := { d with stopRequested := true, attached := false }

/-- Let the deadline of the stop pass. -/
def expire (d : Dispatcher) : Dispatcher := { d with expired := true }

/-- No sequence was left behind. -/
def isClean (d : Dispatcher) : Bool := d.abandoned == 0

/-- Whether the stop was clean: the dispatcher has finished in time and
left nothing behind. -/
def stopResult (timeout : Nat) (d : Dispatcher) (s : Shared H) : Bool × Shared H :=
  if d.isFinished then (d.isClean, s) else (false, report [lateNotice timeout] s)

/-- Stop the dispatcher and wait for it: until it rests, then until the
deadline, then until it rests again. A dispatcher that was stopped before
only tells whether it left sequences behind. -/
def shutdown (h : Handler H) (timeout : Nat) (d : Dispatcher) (s : Shared H) :
    Bool × Dispatcher × Shared H :=
  if d.attached then
    let (d, s) := settle h d.requestStop s
    let (d, s) := if d.isFinished then (d, s) else settle h d.expire s
    let (clean, s) := d.stopResult timeout s
    (clean, d, s)
  else (d.isClean, d, s)

/-- Milliseconds that a dispatcher may take when it is dropped. -/
def dropTimeout : Nat := 5000

/-- Drop a dispatcher; one that is still attached is stopped. -/
def drop (h : Handler H) (d : Dispatcher) (s : Shared H) : Dispatcher × Shared H :=
  (shutdown h dropTimeout d s).2

end Dispatcher

end LogPipeline
