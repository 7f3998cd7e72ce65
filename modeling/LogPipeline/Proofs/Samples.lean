/-
What the theorems are tried out on. Each of them is about all inputs; the
closed statements beside them show that their conditions can be met, and
take what they need from here: events that are a text and nothing else,
formatters, sinks and appenders that do as they are told, loggers on a ring
for two events, and descriptions with a setting or two.

That the loggers are those that a builder makes is said once, for all of
them (`build_parts`).
-/
import LogPipeline.Logger.Build

namespace LogPipeline

-- ============================================================== events

/-- An event with this text and nothing else. -/
def EventValues.ofText (text : String) : EventValues where
  logger := ""
  level := .info
  message := .simple text
  marker := none
  facade := ""
  thrown := none
  context := none
  stack := []
  thread := ""
  location := none
  millis := 0
  includeLocation := false
  properties := none

/-- The slot of such an event. -/
def EventSlot.ofText (text : String) : EventSlot := .ofValues (.ofText text)

namespace Samples

/-- A thread without a context. -/
def caller : Caller := ⟨.empty, "main", none, 0⟩

/-- A marker whose grandparent is the one for audits. -/
def login : Marker := .mk "login" [.mk "web" [], .mk "access" [.mk "AUDIT" []]]

/-- Takes what is marked for audits, and otherwise warnings and worse. -/
def audits : FilterChain :=
  [.builtin (.chain [.builtin (.marker "AUDIT" ⟨.accept, .neutral⟩)]),
    .builtin (.threshold .warn ⟨.neutral, .deny⟩)]

-- ============================================================= outputs

/-- Messages are written as they are. -/
def plainly : Formatter := .custom fun e _ => (e.message.formatted, none)

/-- Messages of more than two characters cannot be written. -/
def tersely : Formatter := .custom fun e _ =>
  if e.message.formatted.length ≤ 2 then (e.message.formatted, none)
  else ("", some (.formatter "terse" "too long"))

/-- A sink that answers every write alike; flushing and closing go well. -/
def sink {W : Type} (answer : Except LogError Unit) (act : W → W) : Sink W where
  write _ w := (answer, act w)
  flush w := (.ok (), w)
  close w := (.ok (), w)
  contentFormat := .empty

def asWritten : OutputOptions := { OutputOptions.none with formatter := some plainly }

/-- Messages as they are, which stay in the buffer. -/
def buffered : OutputOptions := { asWritten with immediateFlush := some false }

/-- The operations of one appender without filters. -/
def appender {S : Type} (name : String) (answer : AppenderCall → S → Outcome × S) :
    AppenderOps Unit S where
  name _ := name
  filter _ := none
  enter _ _ s := s
  isHeld _ _ _ := false
  finish c _ s := answer c s
  drop _ s := ([], s)

/-- A registry where the destination is behind the one manager there is,
and one handle is out. -/
def inUse (name : String) (d : Destination) (w : Devices) : Registry Devices :=
  ((Registry.empty w).acquire name (d.factory buffered)).2.2

-- ============================================================= loggers

variable {α S : Type}

def site (s : S) : Site S := ⟨default, s⟩

/-- A logger is to be made of filters and appenders; its ring is for two events. -/
def parts (mode : DeliveryMode) (filter : FilterChain) (appenders : List α) : LoggerParts α :=
  { (LoggerParts.standard : LoggerParts α) with
    filter, mode, appenders, async := ⟨2, .block, 0⟩ }

/-- A logger that hands each event to its appenders at once. -/
def synchronous (filter : FilterChain) (appenders : List α) : Logger α :=
  .fresh (Logger.settingsOf .empty (parts .sync filter appenders))
    (.sync (some (.fresh, ⟨appenders⟩)))

/-- A logger with a dispatcher. -/
def asynchronous (filter : FilterChain) (appenders : List α) : Logger α :=
  .fresh (Logger.settingsOf .empty (parts .async filter appenders))
    (.async (.onNewRing 2) ⟨appenders⟩ none)

/-- These are the loggers that are built of the parts. -/
theorem build_parts (ops : AppenderOps α S) (mode : DeliveryMode) (filter : FilterChain)
    (appenders : List α) (site : Site S) :
    Logger.build ops .empty (parts mode filter appenders) site
      = (.ok (match mode with
        | .sync => synchronous filter appenders
        | .async => asynchronous filter appenders), site) := by
  cases mode <;> rfl

-- ======================================================== descriptions

/-- A log file at a path, with a buffer of a size if one is given. -/
def onFile (path : String) (bufferSize : Option Nat) : AppenderConfig :=
  .file ⟨none, path, none, true, none, bufferSize, false, none, .text, .iso8601, []⟩

def onConsole (filters : List FilterConfig) : AppenderConfig :=
  .console ⟨none, .stdout, none, none, .text, .iso8601, filters⟩

/-- An application without appenders of its own. -/
def noAppenders : AppenderOps Empty Unit where
  name a := a.elim
  filter a := a.elim
  enter _ a := a.elim
  isHeld _ a := a.elim
  finish _ a := a.elim
  drop a := a.elim

end Samples

end LogPipeline
