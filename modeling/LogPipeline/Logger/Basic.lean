/-
Loggers. A logger asks its filters and its neutral policy whether to
record an event, adds the caller's context, and hands the event on: a
synchronous logger runs its appenders at once, with every event a batch
of its own; an asynchronous one publishes it on a ring, from where a
dispatcher takes it to the appenders.

Every call is counted once: as filtered, as rejected because the logger
has been shut down, or as published. A caller that finds the ring full
waits, and `settle` lets it go on when there is room.

Calls act on a `Site`: the status log that reports go to, and the state
that the appenders act on.
-/
import LogPipeline.Appender.Crew
import LogPipeline.Context

namespace LogPipeline

structure LoggerSettings where
  name : String
  /-- The name stamped on events as that of the facade they came through. -/
  facade : String
  filter : FilterChain
  neutralPolicy : NeutralPolicy
  properties : Option PropertySet
  includeLocation : Bool
  /-- Milliseconds for a flush, and for the shutdown of a logger that is dropped. -/
  shutdownTimeout : Nat

/-- What a thread brings along to a logging call. -/
structure Caller where
  context : ThreadContext
  thread : String
  location : Option Location
  millis : Int

/-- How a logger delivers. -/
inductive Backend (α : Type) where
  /-- The slot that events are written to and the appenders; nothing after shutdown. -/
  | sync (work : Option (EventSlot × AppenderSet α))
  | async (d : Dispatcher) (set : AppenderSet α) (round : Option (Round α))

structure Logger (α : Type) where
  settings : LoggerSettings
  backend : Backend α
  /-- The logger has not been shut down. -/
  accepting : Bool
  /-- What the first shutdown came to. -/
  cleanShutdown : Bool
  metrics : Metrics
  /-- Callers that wait for room on the ring. -/
  waiters : List Ring.Waiter

/-- Where a logger works: the status log and the appenders' state. -/
structure Site (S : Type) where
  status : StatusLog
  world : S

namespace Site

variable {S : Type}

/-- Take over what an errand has come to. -/
def absorb (r : ErrandResult S) (site : Site S) : Site S :=
  ⟨site.status.logAll r.reports, r.state⟩

def report (entries : List StatusEntry) (site : Site S) : Site S :=
  { site with status := site.status.logAll entries }

end Site

namespace Logger

variable {α S : Type}

def component : String := "Logger"

/-- The facade of loggers that name none. -/
def standardFacade : String := "rust_async_logger::Logger"

def ringCapacity? (l : Logger α) : Option Nat :=
  match l.backend with
  | .sync _ => none
  | .async d .. => some d.ring.capacity

-- =========================================================== admission

/-- The logger records an event of this level about which this is known. -/
def admits (s : LoggerSettings) (q : Query) : Bool :=
  s.neutralPolicy.decide (s.filter.ask q) q.level

/-- An event of this level and marker would be recorded. -/
def isEnabled (l : Logger α) (level : Level) (marker : Option Marker) : Bool :=
  admits l.settings (.text l.settings.name level marker "" [])

/-- The event that a call describes. -/
def valuesOf (s : LoggerSettings) (caller : Caller) (level : Level) (marker : Option Marker)
    (message : Message) (thrown : Option Thrown) : EventValues where
  logger := s.name
  level := level
  message := message
  marker := marker
  facade := s.facade
  thrown := thrown
  context := if caller.context.map.isEmpty then none else some caller.context.map
  stack := caller.context.stack
  thread := caller.thread
  location := if s.includeLocation then caller.location else none
  millis := caller.millis
  includeLocation := s.includeLocation
  properties := s.properties

def count (c : Counter) (l : Logger α) : Logger α := { l with metrics := l.metrics.count c }

-- ========================================================== publishing

/-- Publish on the ring, or wait if it is full. -/
def publishAsync (v : EventValues) (d : Dispatcher) (set : AppenderSet α)
    (round : Option (Round α)) (l : Logger α) : Logger α :=
  match d.ring.reserve with
  | none => l.count .rejected
  | some (seq, ring) =>
    match ring.confirm seq with
    | (.granted, ring) =>
      { l with backend := .async { d with ring := ring.publish seq v } set round }.count .published
    | (.refused, ring) => { l with backend := .async { d with ring } set round }.count .rejected
    | (.waiting, ring) =>
      { l with backend := .async { d with ring } set round, waiters := l.waiters ++ [⟨seq, v⟩] }

/-- Deliver on the spot, as a batch of one. -/
def publishSync (ops : AppenderOps α S) (v : EventValues) (slot : EventSlot)
    (set : AppenderSet α) (l : Logger α) (site : Site S) : Logger α × Site S :=
  let slot := { slot.setValues v with endOfBatch := true }
  let r := set.deliver ops slot true site.world
  let l := ({ l with backend := .sync (some (slot, set)) }.count .published).count .endOfBatch
  (l.count (Dispatcher.tally (.ofExcept r.result)), site.absorb r)

/-- Hand an admitted event on, unless the logger has been shut down. -/
def publish (ops : AppenderOps α S) (v : EventValues) (l : Logger α) (site : Site S) :
    Logger α × Site S :=
  if !l.accepting then (l.count .rejected, site)
  else match l.backend with
    | .async d set round => (publishAsync v d set round l, site)
    | .sync none => (l.count .rejected, site)
    | .sync (some (slot, set)) => publishSync ops v slot set l site

/-- Publish the event if the logger admits it on this question. -/
def submit (ops : AppenderOps α S) (q : Query) (v : EventValues) (l : Logger α) (site : Site S) :
    Logger α × Site S :=
  if admits l.settings q then l.publish ops v site else (l.count .filtered, site)

/-- Log a message, with an error or without. -/
def log (ops : AppenderOps α S) (caller : Caller) (level : Level) (marker : Option Marker)
    (message : Message) (thrown : Option Thrown) (l : Logger α) (site : Site S) :
    Logger α × Site S :=
  l.submit ops (.message l.settings.name level marker message thrown)
    (valuesOf l.settings caller level marker message thrown) site

/-- Log a pattern; the filters see it with its params not yet put in. -/
def logParams (ops : AppenderOps α S) (caller : Caller) (level : Level) (marker : Option Marker)
    (pattern : String) (params : List String) (l : Logger α) (site : Site S) :
    Logger α × Site S :=
  l.submit ops (.text l.settings.name level marker pattern params)
    (valuesOf l.settings caller level marker (.parameterized pattern params) none) site

/-- Log a text that is only made if the level is enabled. -/
def logIfEnabled (ops : AppenderOps α S) (caller : Caller) (level : Level) (marker : Option Marker)
    (text : Unit → String) (l : Logger α) (site : Site S) : Logger α × Site S :=
  if l.isEnabled level marker then l.log ops caller level marker (.simple (text ())) none site
  else (l, site)

-- ============================================================ settling

/-- Run the dispatcher until it rests. -/
def runDispatcher (ops : AppenderOps α S) (l : Logger α) (site : Site S) : Logger α × Site S :=
  match l.backend with
  | .sync _ => (l, site)
  | .async d set round =>
    let (d, s) := d.settle (Crew.handler ops) ⟨l.metrics, site.status, ⟨set, round, site.world⟩⟩
    ({ l with metrics := s.metrics, backend := .async d s.handler.set s.handler.round },
      ⟨s.status, s.handler.world⟩)

/-- Let one waiting caller try again. -/
def retryWaiter (l : Logger α) (w : Ring.Waiter) : Logger α :=
  match l.backend with
  | .sync _ => l
  | .async d set round =>
    match d.ring.retry w with
    | (none, ring) => { l with backend := .async { d with ring } set round,
                               waiters := l.waiters ++ [w] }
    | (some (.ok _), ring) =>
      ({ l with backend := .async { d with ring } set round }.count .waits).count .published
    | (some (.error _), ring) =>
      { l with backend := .async { d with ring } set round }.count .rejected

/-- Let every waiting caller try again. -/
def retryWaiters (l : Logger α) : Logger α :=
  l.waiters.foldl retryWaiter { l with waiters := [] }

/-- At most `fuel` rounds of the dispatcher and the waiting callers. -/
def settleFor (ops : AppenderOps α S) : (fuel : Nat) → Logger α → Site S → Logger α × Site S
  | 0, l, site => l.runDispatcher ops site
  | fuel + 1, l, site =>
    let (l, site) := l.runDispatcher ops site
    let before := l.waiters.length
    let l := l.retryWaiters
    if l.waiters.length < before then settleFor ops fuel l site else (l, site)

/-- Run the dispatcher, and let callers go on, until all rest. -/
def settle (ops : AppenderOps α S) (l : Logger α) (site : Site S) : Logger α × Site S :=
  settleFor ops l.waiters.length l site

-- ============================================================ flushing

def pendingError (n : Nat) : LogError :=
  .writer ("flush timed out with " ++ Nat.repr n ++ " events pending")

def stuckError : LogError := .writer "flush timed out waiting for appenders"

/-- The dispatcher of an asynchronous logger. -/
def dispatcher? (l : Logger α) : Option Dispatcher :=
  match l.backend with
  | .sync _ => none
  | .async d .. => some d

/-- Change the dispatcher, if there is one. -/
def onDispatcher (f : Dispatcher → Dispatcher) (l : Logger α) : Logger α :=
  match l.backend with
  | .sync _ => l
  | .async d set round => { l with backend := .async (f d) set round }

/-- Have the dispatcher flush the appenders, once everything reserved so
far has been consumed. What has not come about when all rest does not
come about in time. -/
def flushAsync (ops : AppenderOps α S) (d : Dispatcher) (l : Logger α) (site : Site S) :
    Except LogError Unit × Logger α × Site S :=
  let (l, site) := l.settle ops site
  let now := l.dispatcher?.getD d
  if now.ring.consumed < d.ring.claimed then
    if now.isRunning then (.error (pendingError (d.ring.claimed - now.ring.consumed)), l, site)
    else (.error .stopped, l, site)
  else if !now.isRunning then (.error .stopped, l, site)
  else
    let (ticket, requested) := now.requestFlush
    let (l, site) := (l.onDispatcher fun _ => requested).settle ops site
    let after := l.dispatcher?.getD requested
    if after.isFlushed ticket then (.ok (), l, site)
    else if after.isRunning then (.error stuckError, l, site)
    else (.error .stopped, l, site)

/-- Push pending output out. -/
def flush (ops : AppenderOps α S) (l : Logger α) (site : Site S) :
    Except LogError Unit × Logger α × Site S :=
  match l.backend with
  | .sync none => (.ok (), l, site)
  | .sync (some (_, set)) =>
    let r := set.flush ops site.world
    (r.result, l, site.absorb r)
  | .async d .. => flushAsync ops d l site

-- ======================================================= shutting down

/-- Stop the dispatcher and wait for it until the deadline. -/
def stopAsync (ops : AppenderOps α S) (timeout : Nat) (l : Logger α) (site : Site S) :
    Bool × Logger α × Site S :=
  let (l, site) := (l.onDispatcher Dispatcher.requestStop).settle ops site
  let (l, site) :=
    if l.dispatcher?.any Dispatcher.isFinished then (l, site)
    else (l.onDispatcher Dispatcher.expire).settle ops site
  match l.dispatcher? with
  | none => (true, l, site)
  | some d =>
    let (clean, s) := d.stopResult timeout (⟨l.metrics, site.status, ()⟩ : Shared Unit)
    (clean, l, { site with status := s.status })

/-- Stop accepting events, deliver what was published, stop the appenders
and give back what they hold. It is clean if nothing was left behind and
the appenders stopped well. A logger is shut down once; later calls tell
what the first one came to. -/
def shutdown (ops : AppenderOps α S) (timeout : Nat) (l : Logger α) (site : Site S) :
    Bool × Logger α × Site S :=
  if !l.accepting then (l.cleanShutdown, l, site)
  else
    let l := { l with accepting := false }
    let (clean, l, site) : Bool × Logger α × Site S :=
      match l.backend with
      | .async d .. => if d.attached then stopAsync ops timeout l site else (true, l, site)
      | .sync none => (true, l, site)
      | .sync (some (_, set)) =>
        let (r, _) := set.stop ops site.world
        ((Outcome.ofExcept r.result).isDone, { l with backend := .sync none }, site.absorb r)
    (clean, { l with cleanShutdown := clean }, site)

/-- What is said when a dropped logger did not shut down well. -/
def lateNotice (s : LoggerSettings) : StatusEntry :=
  ⟨.warn, component, "shutdown of '" ++ s.name ++ "' did not complete within "
    ++ Text.duration s.shutdownTimeout ++ ". Some logs may be lost."⟩

/-- What is said when a dropped logger has failed deliveries. -/
def failureNotice (s : LoggerSettings) (m : Metrics) : StatusEntry :=
  ⟨.warn, component, "'" ++ s.name ++ "' shutting down with " ++ Nat.repr m.failures
    ++ " failed deliveries (failure rate: " ++ twoDecimals m.failureRate ++ "%)"⟩

/-- Drop a logger: shut it down if it still accepts events, and report
what went wrong in its time. -/
def drop (ops : AppenderOps α S) (l : Logger α) (site : Site S) : Logger α × Site S :=
  let (clean, l, site) := l.shutdown ops l.settings.shutdownTimeout site
  let late := if clean then [] else [lateNotice l.settings]
  let failed := if l.metrics.failures = 0 then [] else [failureNotice l.settings l.metrics]
  (l, site.report (late ++ failed))

end Logger

end LogPipeline
