/-
JSON forms of what a pipeline holds, for those who look into it from
outside.
-/
import LogPipeline.Device.Record
import LogPipeline.Event
import LogPipeline.Json.Basic
import LogPipeline.Metrics
import LogPipeline.Output.Registry
import LogPipeline.Text.Hex

namespace LogPipeline

-- ============================================================= scalars

/-- `null` for what is not there. -/
def Json.ofOption {α : Type} (f : α → Json) : Option α → Json
  | some a => f a
  | none => .null

def Json.ofList {α : Type} (l : List α) (f : α → Json) : Json := .arr (l.map f)

def Json.ofTexts (l : List String) : Json := .arr (l.map .str)

def Json.ofNat (n : Nat) : Json := .int n

/-- Bytes as the text that they are, or as digits if they are none. -/
def Json.ofBytes (b : ByteArray) : Json :=
  match String.fromUTF8? b with
  | some s => .str s
  | none => .obj [("hex", .str (Text.hex b))]

def Dict.toJson (d : Dict String) : Json := .obj (d.entries.map fun e => (e.1, .str e.2))

-- ============================================================== errors

/-- The name of the kind of an error. -/
def LogError.kind : LogError → String
  | .io .. => "IoOperation"
  | .system .. => "IoError"
  | .json => "JsonError"
  | .invalidConfiguration .. => "InvalidConfiguration"
  | .managerCreation .. => "ManagerCreation"
  | .managerClosed .. => "ManagerClosed"
  | .formatter .. => "FormatterError"
  | .writer .. => "WriterError"
  | .stopped => "LoggerStopped"
  | .other .. => "Other"

/-- An error as members of an object. What a JSON text fails on is not told. -/
def LogError.members (e : LogError) : List (String × Json) :=
  ("error", .str e.kind) :: if e = .json then [] else [("message", .str e.message)]

def LogError.toJson (e : LogError) : Json := .obj e.members

/-- The result of what has no value to give. -/
def LogError.resultJson : Except LogError Unit → Json
  | .ok () => .str "ok"
  | .error e => e.toJson

-- ============================================================== events

/-- A slot as members of an object, without what depends on where and when. -/
def EventSlot.members (s : EventSlot) : List (String × Json) :=
  [("logger", .str s.logger), ("level", .str s.level.name),
    ("marker", Json.ofOption (fun m => .str m.display) s.marker), ("fqcn", .str s.facade),
    ("message", .str s.message.formatted), ("format", .str s.message.rawText),
    ("thrown", Json.ofOption (fun t => Json.ofTexts t.texts) s.thrown),
    ("context", s.context.toJson), ("stack", Json.ofTexts s.stack), ("thread", .str s.thread),
    ("include_location", .bool s.includeLocation), ("end_of_batch", .bool s.endOfBatch)]

def EventSlot.toJson (s : EventSlot) : Json :=
  .obj (("location", Json.ofOption (fun l => .str l.display) s.location)
    :: ("millis", .int s.millis) :: s.members)

-- ============================================================= counters

/-- The counters, as many of them as are asked for. -/
def Metrics.toJson (m : Metrics) (count : Nat) : Json :=
  Json.ofList (m.toList.take count) Json.ofNat

def StatusEntry.toJson (e : StatusEntry) : Json :=
  Json.ofTexts [e.level.name, e.component, e.message]

-- =============================================================== output

def Manager.toJson (m : Manager) : Json :=
  .arr [Json.ofNat m.buffer.size, Json.ofNat m.bytesWritten, Json.ofNat m.flushes, .bool m.closed]

def MemoryRecord.toJson (r : MemoryRecord) : Json :=
  .obj [("writes", Json.ofList r.writes.toList Json.ofBytes), ("flushes", Json.ofNat r.flushes),
    ("closed", .bool r.closed)]

/-- The names in use, each with the number of its handles. -/
def Registry.toJson {W : Type} (r : Registry W) : Json :=
  Json.ofList r.entries.entries fun (name, e) => .arr [.str name, Json.ofNat e.refCount]

end LogPipeline
