/-
A logger on the bench, with the context of the thread that calls it.
After each call everything runs until it rests, so that an event logged
alone is a batch of its own; to make larger batches, events are logged
while the gate of the scripted appenders is closed.
-/
import LogPipeline.Logger.Build
import LogPipeline.Rehearsal.OutputBench

namespace LogPipeline.Rehearsal

/-- What a call logs. -/
inductive LoggedText where
  | message (m : Message) (thrown : Option Thrown)
  | pattern (text : String) (params : List String)
  /-- A text that is only made if the level is enabled. -/
  | lazily (text : String)

/-- A call of a logger. -/
structure LogCall where
  level : Level
  marker : Option Marker
  text : LoggedText

namespace LogCall

def make (c : LogCall) (caller : Caller) (l : Logger BenchAppender) (site : BenchSite) :
    Logger BenchAppender × BenchSite :=
  match c.text with
  | .message m thrown => l.log benchOps caller c.level c.marker m thrown site
  | .pattern text params => l.logParams benchOps caller c.level c.marker text params site
  | .lazily text => l.logIfEnabled benchOps caller c.level none (fun _ => text) site

end LogCall

structure LoggerBench where
  outputs : OutputBench
  /-- The logger, and the status log it has to itself, if it has one. -/
  logger : Option (Logger BenchAppender)
  ownStatus : Option StatusLog
  /-- A logger that was dropped while it was held up. -/
  leaving : Option (Logger BenchAppender)
  thread : String
  context : ThreadContext
  /-- Guards on a key and a label each, the latest first. -/
  scopes : List (ContextGuard × ContextGuard)

namespace LoggerBench

def initial (outputs : OutputBench) (thread : String) : LoggerBench :=
  ⟨outputs, none, none, none, thread, .empty, []⟩

def onStage (f : Stage → Stage) (b : LoggerBench) : LoggerBench :=
  { b with outputs := b.outputs.onStage f }

/-- Where the logger works. -/
def site (b : LoggerBench) : BenchSite :=
  match b.ownStatus with
  | none => b.outputs.site
  | some status => { b.outputs.site with status }

def withSite (s : BenchSite) (b : LoggerBench) : LoggerBench :=
  match b.ownStatus with
  | none => { b with outputs := { b.outputs with site := s } }
  | some _ =>
    { b with ownStatus := some s.status
             outputs := { b.outputs with site := { b.outputs.site with world := s.world } } }

-- ============================================================= building

/-- Put a logger on the bench that has been built. -/
def install (r : Except LogError (Logger BenchAppender) × BenchSite) (b : LoggerBench) :
    Except LogError (Logger BenchAppender) × LoggerBench :=
  (r.1, { b.withSite r.2 with logger := r.1.toOption })

/-- Build a logger from its description. -/
def configure (env : Environment) (c : PipelineConfig) (b : LoggerBench) :
    Except LogError (Logger BenchAppender) × LoggerBench :=
  match Logger.ofConfig ScriptedAppender.ops env c b.site with
  | (.ok l, site) => b.install (.ok l, site)
  | (.error f, site) =>
    let (e, outputs) := b.outputs.failed f
    { b with outputs }.install (.error e, site)

/-- Build a logger from parts, and first its appenders. -/
def assemble (env : Environment) (p : LoggerParts (Except LogError AppenderPlan))
    (b : LoggerBench) : Except LogError (Logger BenchAppender) × LoggerBench :=
  let (result, outputs) := b.outputs.buildAll p.appenders []
  let b := { b with outputs }
  match result with
  | .error e => (.error e, b)
  | .ok appenders =>
    b.install (Logger.build benchOps env.vars { p with appenders } b.site)

/-- The logger that is there before any is built, which reports to a
status log of its own. -/
def installStandard (b : LoggerBench) : Except LogError (Logger BenchAppender) × LoggerBench :=
  let b := { b with ownStatus := some .standard }
  b.install (.ok .standard, b.site)

-- =============================================================== running

/-- Run the logger until it rests, and one that is on its way out. -/
def settle (b : LoggerBench) : LoggerBench :=
  let b := match b.leaving with
    | none => b
    | some l =>
      let (l, s) := l.settle benchOps b.site
      { b.withSite s with leaving := some l }
  match b.logger with
  | none => b
  | some l =>
    let (l, s) := l.settle benchOps b.site
    { b.withSite s with logger := some l }

/-- Run an operation of the logger. -/
def onLogger {α : Type} (op : Logger BenchAppender → BenchSite →
    α × Logger BenchAppender × BenchSite) (b : LoggerBench) : Option α × LoggerBench :=
  match b.logger with
  | none => (none, b)
  | some l =>
    let (a, l, s) := op l b.site
    (some a, { b.withSite s with logger := some l })

def caller (b : LoggerBench) : Caller := ⟨b.context, b.thread, some ⟨"", 0, 0⟩, 0⟩

/-- A caller on a thread of its own. -/
def producer (b : LoggerBench) : Caller := { b.caller with context := .empty, thread := "producer" }

def log (caller : Caller) (c : LogCall) (b : LoggerBench) : LoggerBench :=
  ((b.onLogger fun l s => ((), c.make caller l s)).2).settle

/-- The ring of the logger has no room left. -/
def isFull (b : LoggerBench) : Bool :=
  (b.logger.bind Logger.dispatcher?).any fun d => d.ring.remaining == 0

def isWaiting (b : LoggerBench) : Bool := b.logger.any fun l => !l.waiters.isEmpty

/-- Log behind the closed gate. Where there is no room, a producer has to
wait until the event at the gate is through and the next one stands there. -/
def logHeld (c : LogCall) (b : LoggerBench) : LoggerBench :=
  let b := b.log (if b.isFull then b.producer else b.caller) c
  if b.isWaiting then (b.onStage Stage.admitEntered).settle else b

def hold (b : LoggerBench) : LoggerBench := b.onStage Stage.closeGate

def release (b : LoggerBench) : LoggerBench := (b.onStage Stage.openGate).settle

/-- The first event is a batch, and the others are one. -/
def burst (calls : List LogCall) (b : LoggerBench) : LoggerBench :=
  (calls.foldl (fun b c => b.logHeld c) b.hold).release

def flush (b : LoggerBench) : Option (Except LogError Unit) × LoggerBench :=
  b.onLogger (Logger.flush benchOps)

def shutdown (timeout : Nat) (b : LoggerBench) : Option Bool × LoggerBench :=
  b.onLogger (Logger.shutdown benchOps timeout)

/-- Drop the logger. -/
def drop (b : LoggerBench) : LoggerBench :=
  match b.logger with
  | none => b
  | some l =>
    let (l, s) := l.drop benchOps b.site
    { b.withSite s with logger := none, leaving := some l }

-- =============================================================== context

def onContext (f : ThreadContext → ThreadContext) (b : LoggerBench) : LoggerBench :=
  { b with context := f b.context }

/-- Put a key and push a label until the scope is left. -/
def enterScope (key value label : String) (b : LoggerBench) : LoggerBench :=
  let (outer, context) := b.context.putScoped key value
  let (inner, context) := context.pushScoped label
  { b with context, scopes := (outer, inner) :: b.scopes }

/-- Leave the latest scope, if there is one. -/
def leaveScope (b : LoggerBench) : Bool × LoggerBench :=
  match b.scopes with
  | [] => (false, b)
  | (outer, inner) :: scopes =>
    (true, { b with context := (b.context.release outer).release inner, scopes })

end LoggerBench

end LogPipeline.Rehearsal
