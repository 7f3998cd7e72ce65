/-
Building appenders from a description of their destination. Destinations
are reached through managers, and appenders that name one manager share
it; where no manager is named, the name comes from the destination.

A buffer larger than any allocation may be stops the program that asks
for it. Short of that, memory is taken to be there.
-/
import LogPipeline.Appender.Output
import LogPipeline.Devices

namespace LogPipeline

/-- Where an appender of the library writes to. -/
inductive Destination where
  /-- A memory record behind the named manager: the numbered one, or a new one. -/
  | memory (manager : String) (record : Option Nat)
  | file (path : String) (manager : Option String) (append : Bool) (advertisedUri : Option String)
  | console (target : ConsoleTarget)
  /-- A peer, to which a write may take `timeout` milliseconds. -/
  | socket (address : String) (timeout : Nat)
  deriving DecidableEq

/-- What else an appender can be given; what is not given has a default by
the kind of the destination. -/
structure OutputOptions where
  name : Option String
  immediateFlush : Option Bool
  capacity : Option Nat
  formatter : Option Formatter
  filter : Option FilterChain

namespace OutputOptions

def none : OutputOptions := ⟨.none, .none, .none, .none, .none⟩

end OutputOptions

/-- A managed output together with the destination it was built for. -/
structure Appender where
  output : ManagedOutput
  destination : Destination

namespace Destination

/-- The name of an appender that is not given any. -/
def appenderName : Destination → String
  | memory .. => "memory"
  | file .. => "file"
  | console .. => "console"
  | socket .. => "socket"

/-- The manager that leads to the destination. -/
def managerName : Destination → String
  | memory manager _ => manager
  | file path manager _ _ => manager.getD path
  | console .stdout => "console.stdout"
  | console .stderr => "console.stderr"
  | socket address _ => "tcp:" ++ address

def immediateFlush : Destination → Bool
  | file .. | console .. => true
  | memory .. | socket .. => false

/-- The buffer of consoles and connections is small. -/
def smallCapacity : Nat := 8192

def capacity : Destination → Nat
  | memory .. | file .. => Manager.defaultCapacity
  | console .. | socket .. => smallCapacity

/-- A line without the thread for records in memory, a plain line otherwise. -/
def formatter : Destination → Formatter
  | memory .. => .line { LineFormat.standard with thread := false }
  | _ => .line .standard

/-- What a file advertises. -/
def attributes : Destination → Dict String
  | file _ _ _ (some uri) => Dict.empty.insert "fileURI" uri
  | _ => .empty

/-- Open the destination. -/
def openSink (d : Destination) (w : Devices) : Except LogError (Sink Devices) × Devices :=
  match d with
  | memory _ record => (.ok (Devices.recordSink (record.getD 0)), w)
  | file path _ append _ =>
    match w.openFile path append with
    | (.ok id, w) => (.ok (Devices.fileSink id), w)
    | (.error e, w) => (.error e, w)
  | console target => (.ok (Devices.consoleSink target), w)
  | socket address timeout =>
    match w.connect address with
    | (.error e, w) => (.error e, w)
    | (.ok id, w) =>
      if timeout = 0 then (.error (.system "cannot set a 0 duration timeout"), w)
      else (.ok (Devices.connectionSink id), w)

/-- Open the destination and put a manager in front of it. -/
def factory (d : Destination) (o : OutputOptions) : ManagerFactory Devices := fun name w =>
  match d.openSink w with
  | (.error e, w) => (.error e, w)
  | (.ok sink, w) =>
    (.ok ⟨.new name (o.capacity.getD d.capacity) (o.immediateFlush.getD d.immediateFlush)
      d.attributes, sink⟩, w)

/-- A manager has to be made for the destination, which can be opened, and
its buffer is larger than any can be. -/
def overflows (d : Destination) (o : OutputOptions) (r : Registry Devices) : Bool :=
  !r.contains d.managerName && (d.openSink r.world).1.isOk
    && decide (Manager.maxCapacity < o.capacity.getD d.capacity)

/-- A memory destination without a record gets a new one. -/
def withRecord (d : Destination) (r : Registry Devices) : Destination × Registry Devices :=
  match d with
  | memory manager none =>
    let (id, w) := r.world.newRecord
    (memory manager (some id), { r with world := w })
  | d => (d, r)

end Destination

namespace Appender

/-- Build an appender for a destination, with a handle on its manager. The
destination has been opened by the time the buffer turns out too large. -/
def build (d : Destination) (o : OutputOptions) (r : Registry Devices) :
    Except Failure Appender × List StatusEntry × Registry Devices :=
  match d with
  | .file "" .. =>
    (.error (.told (.invalidConfiguration "FileAppender" "path must not be empty")), [], r)
  | d =>
    let (d, r) := d.withRecord r
    if d.overflows o r then
      (.error (.panicked Manager.overflow), [], { r with world := (d.openSink r.world).2 })
    else
      match r.acquire d.managerName (d.factory o) with
      | (.error e, reports, r) => (.error (.told e), reports, r)
      | (.ok handle, reports, r) =>
        (.ok ⟨⟨o.name.getD d.appenderName, handle, o.formatter.getD d.formatter,
            ManagedOutput.usable o.filter⟩, d⟩, reports, r)

/-- Appenders act as the outputs that they are. -/
def ops : AppenderOps Appender (Registry Devices) where
  name a := a.output.name
  filter a := a.output.filter
  enter _ _ r := r
  isHeld _ _ _ := false
  finish c a := ManagedOutput.ops.finish c a.output
  drop a := ManagedOutput.ops.drop a.output

/-- The number of the record that a memory appender was given. -/
def record? (a : Appender) : Option Nat :=
  match a.destination with
  | .memory _ record => record
  | _ => none

end Appender

end LogPipeline
