/-
Sinks: where bytes go in the end. A sink only moves bytes; buffering and
sharing are the work of the manager in front of it. What a sink does is
told by its effect on a world `W`, of which nothing else is assumed.
-/
import LogPipeline.Dict
import LogPipeline.Error

namespace LogPipeline

/-- A destination for bytes. `close` is called once, after a last flush. -/
structure Sink (W : Type) where
  write : ByteArray → W → Except LogError Unit × W
  flush : W → Except LogError Unit × W
  close : W → Except LogError Unit × W
  /-- Attributes that the destination advertises. -/
  contentFormat : Dict String

end LogPipeline
