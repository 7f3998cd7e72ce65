/-
The written form of a description: JSON with one member for each setting,
in the order of the fields. Filters and appenders are records tagged with
their kind. Every setting but a marker's name, a file's path and a peer's
address may be left out.
-/
import LogPipeline.Config.Basic

namespace LogPipeline

open Json (required withDefault optional)

/-- A text that may be left out or `null`. -/
def optionalText : Json.Place → Option Json → Option (Option String) :=
  withDefault none (optional Json.text)

def optionalFlag : Json.Place → Option Json → Option (Option Bool) :=
  withDefault none (optional Json.boolean)

def optionalSize : Json.Place → Option Json → Option (Option Nat) :=
  withDefault none (optional Json.word)

/-- A setting that is `null` when it is not given. -/
def nullable {α : Type} (f : α → Json) : Option α → Json
  | none => .null
  | some a => f a

def textOrNull : Option String → Json := nullable .str

def flagOrNull : Option Bool → Json := nullable .bool

def sizeOrNull : Option Nat → Json := nullable fun n => .int n

-- ========================================================== enumerations

def WaitStrategy.decoder : Decoder WaitStrategy :=
  Json.oneOf [("block", .block), ("yield", .yield), ("spin", .spin)]

def DeliveryMode.decoder : Decoder DeliveryMode :=
  Json.oneOf [("async", .async), ("sync", .sync)]

def ConsoleTarget.decoder : Decoder ConsoleTarget :=
  Json.oneOf [("stdout", .stdout), ("stderr", .stderr)]

-- ========================================================= ring settings

namespace AsyncConfig

def decoder : Decoder AsyncConfig := fun pl v => do
  let (pl, fs) ← Json.fields ["ring_buffer_size", "wait_strategy", "shutdown_timeout_ms"] pl v
  match fs with
  | [size, wait, timeout] =>
    return ⟨← withDefault standard.ringBufferSize Json.word pl size,
      ← withDefault standard.waitStrategy WaitStrategy.decoder pl wait,
      ← withDefault standard.shutdownTimeout Json.word pl timeout⟩
  | _ => none

def toJson (c : AsyncConfig) : Json :=
  .obj [("ring_buffer_size", .int c.ringBufferSize), ("wait_strategy", .str c.waitStrategy.name),
    ("shutdown_timeout_ms", .int c.shutdownTimeout)]

end AsyncConfig

-- =============================================================== filters

namespace FilterConfig

def thresholdDecoder : Decoder FilterConfig := fun pl v => do
  let (pl, fs) ← Json.fields ["level", "on_match", "on_mismatch"] pl v
  match fs with
  | [level, onMatch, onMismatch] =>
    return threshold (← optionalText pl level) (← optionalText pl onMatch)
      (← optionalText pl onMismatch)
  | _ => none

def markerDecoder : Decoder FilterConfig := fun pl v => do
  let (pl, fs) ← Json.fields ["marker", "on_match", "on_mismatch"] pl v
  match fs with
  | [name, onMatch, onMismatch] =>
    return marker (← required Json.text pl name) (← optionalText pl onMatch)
      (← optionalText pl onMismatch)
  | _ => none

def decoder : Decoder FilterConfig :=
  Json.tagged [("threshold", thresholdDecoder), ("marker", markerDecoder)]

def toJson : FilterConfig → Json
  | threshold level onMatch onMismatch =>
    .obj [("type", .str "threshold"), ("level", textOrNull level),
      ("on_match", textOrNull onMatch), ("on_mismatch", textOrNull onMismatch)]
  | marker name onMatch onMismatch =>
    .obj [("type", .str "marker"), ("marker", .str name),
      ("on_match", textOrNull onMatch), ("on_mismatch", textOrNull onMismatch)]

/-- A chain that may be left out. -/
def chainDecoder : Json.Place → Option Json → Option (List FilterConfig) :=
  withDefault [] (Json.list decoder)

def chainJson (filters : List FilterConfig) : Json := .arr (filters.map toJson)

end FilterConfig

-- ============================================================= appenders

def formatField : Json.Place → Option Json → Option OutputFormat :=
  withDefault .text OutputFormat.decoder

def timestampField : Json.Place → Option Json → Option TimestampFormat :=
  withDefault .iso8601 TimestampFormat.decoder

namespace FileConfig

def decoder : Decoder FileConfig := fun pl v => do
  let (pl, fs) ← Json.fields ["name", "path", "manager", "append", "immediate_flush",
    "buffer_size", "locking", "advertise_uri", "format", "timestamp_format", "filters"] pl v
  match fs with
  | [name, path, manager, append, immediate, size, locking, uri, format, timestamp, filters] =>
    return ⟨← optionalText pl name, ← required Json.text pl path, ← optionalText pl manager,
      ← withDefault true Json.boolean pl append, ← optionalFlag pl immediate,
      ← optionalSize pl size, ← withDefault false Json.boolean pl locking,
      ← optionalText pl uri, ← formatField pl format, ← timestampField pl timestamp,
      ← FilterConfig.chainDecoder pl filters⟩
  | _ => none

def toJson (c : FileConfig) : Json :=
  .obj [("type", .str "file"), ("name", textOrNull c.name), ("path", .str c.path),
    ("manager", textOrNull c.manager), ("append", .bool c.append),
    ("immediate_flush", flagOrNull c.immediateFlush), ("buffer_size", sizeOrNull c.bufferSize),
    ("locking", .bool c.locking), ("advertise_uri", textOrNull c.advertisedUri),
    ("format", .str c.format.name), ("timestamp_format", c.timestamp.toJson),
    ("filters", FilterConfig.chainJson c.filters)]

end FileConfig

namespace ConsoleConfig

def decoder : Decoder ConsoleConfig := fun pl v => do
  let (pl, fs) ← Json.fields ["name", "target", "colors", "immediate_flush", "format",
    "timestamp_format", "filters"] pl v
  match fs with
  | [name, target, colors, immediate, format, timestamp, filters] =>
    return ⟨← optionalText pl name, ← withDefault .stdout ConsoleTarget.decoder pl target,
      ← optionalFlag pl colors, ← optionalFlag pl immediate, ← formatField pl format,
      ← timestampField pl timestamp, ← FilterConfig.chainDecoder pl filters⟩
  | _ => none

def toJson (c : ConsoleConfig) : Json :=
  .obj [("type", .str "console"), ("name", textOrNull c.name), ("target", .str c.target.name),
    ("colors", flagOrNull c.colors), ("immediate_flush", flagOrNull c.immediateFlush),
    ("format", .str c.format.name), ("timestamp_format", c.timestamp.toJson),
    ("filters", FilterConfig.chainJson c.filters)]

end ConsoleConfig

namespace SocketConfig

def decoder : Decoder SocketConfig := fun pl v => do
  let (pl, fs) ← Json.fields ["name", "address", "write_timeout_ms", "immediate_flush",
    "buffer_size", "format", "timestamp_format", "filters"] pl v
  match fs with
  | [name, address, timeout, immediate, size, format, timestamp, filters] =>
    return ⟨← optionalText pl name, ← required Json.text pl address, ← optionalSize pl timeout,
      ← optionalFlag pl immediate, ← optionalSize pl size, ← formatField pl format,
      ← timestampField pl timestamp, ← FilterConfig.chainDecoder pl filters⟩
  | _ => none

def toJson (c : SocketConfig) : Json :=
  .obj [("type", .str "socket"), ("name", textOrNull c.name), ("address", .str c.address),
    ("write_timeout_ms", sizeOrNull c.writeTimeout),
    ("immediate_flush", flagOrNull c.immediateFlush), ("buffer_size", sizeOrNull c.bufferSize),
    ("format", .str c.format.name), ("timestamp_format", c.timestamp.toJson),
    ("filters", FilterConfig.chainJson c.filters)]

end SocketConfig

namespace AppenderConfig

def decoder : Decoder AppenderConfig :=
  Json.tagged [("file", fun pl v => (FileConfig.decoder pl v).map file),
    ("console", fun pl v => (ConsoleConfig.decoder pl v).map console),
    ("socket", fun pl v => (SocketConfig.decoder pl v).map socket)]

def toJson : AppenderConfig → Json
  | file c => c.toJson
  | console c => c.toJson
  | socket c => c.toJson

end AppenderConfig

-- ============================================================= pipelines

namespace PipelineConfig

def decoder : Decoder PipelineConfig := fun pl v => do
  let (pl, fs) ← Json.fields ["name", "mode", "async", "neutral_policy", "include_location",
    "filters", "properties", "variables", "appenders"] pl v
  match fs with
  | [name, mode, async, policy, location, filters, properties, vars, appenders] =>
    return ⟨← withDefault standard.name Json.text pl name,
      ← withDefault standard.mode DeliveryMode.decoder pl mode,
      ← withDefault standard.async AsyncConfig.decoder pl async,
      ← withDefault standard.neutralPolicy NeutralPolicy.decoder pl policy,
      ← withDefault standard.includeLocation Json.boolean pl location,
      ← FilterConfig.chainDecoder pl filters,
      ← withDefault [] (Json.list Property.decoder) pl properties,
      ← withDefault .empty (Json.dict Json.text) pl vars,
      ← withDefault [] (Json.list AppenderConfig.decoder) pl appenders⟩
  | _ => none

def toJson (c : PipelineConfig) : Json :=
  .obj [("name", .str c.name), ("mode", .str c.mode.name), ("async", c.async.toJson),
    ("neutral_policy", c.neutralPolicy.toJson), ("include_location", .bool c.includeLocation),
    ("filters", FilterConfig.chainJson c.filters),
    ("properties", .arr (c.properties.map Property.toJson)),
    ("variables", .obj (c.vars.entries.map fun e => (e.1, .str e.2))),
    ("appenders", .arr (c.appenders.map AppenderConfig.toJson))]

/-- The written form, one setting to a line. -/
def toText (c : PipelineConfig) : String := c.toJson.renderPretty

end PipelineConfig

end LogPipeline
