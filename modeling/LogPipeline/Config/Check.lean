/-
Understanding a description: its filters are built from their names, the
size of the ring is looked up, and what cannot be meant is refused before
anything is opened.
-/
import LogPipeline.Config.Codec

namespace LogPipeline

-- ============================================================== filters

namespace FilterConfig

def build : FilterConfig → Except LogError Filter
  | threshold level onMatch onMismatch => Filter.thresholdOfNames level onMatch onMismatch
  | marker name onMatch onMismatch => Filter.markerOfNames name onMatch onMismatch

/-- A chain, built in order; the first filter that cannot be built decides. -/
def buildChain : List FilterConfig → Except LogError FilterChain
  | [] => .ok []
  | c :: rest =>
    match c.build with
    | .error e => .error e
    | .ok f =>
      match buildChain rest with
      | .error e => .error e
      | .ok fs => .ok (.builtin f :: fs)

/-- The chain of an appender, which may have none. -/
def buildOptional (filters : List FilterConfig) : Except LogError (Option FilterChain) :=
  if filters.isEmpty then .ok none else (buildChain filters).map some

end FilterConfig

-- ================================================================= ring

namespace AsyncConfig

/-- The variable that overrides the size of every ring. -/
def sizeVariable : String := "RUST_ASYNC_LOGGER_RING_BUFFER_SIZE"

def isDigit (c : Char) : Bool := '0' ≤ c && c ≤ '9'

/-- The number that digits stand for, a plus sign in front allowed, if it
fits into 64 bits. -/
def parseSize? (cs : List Char) : Option Nat :=
  let digits := match cs with
    | '+' :: rest => rest
    | cs => cs
  if !digits.isEmpty && digits.all isDigit then
    let n := Nat.ofDigitChars 10 digits 0
    if n < 18446744073709551616 then some n else none
  else none

/-- The size of the ring: that of the environment if it gives one, which
has to be positive then, and otherwise the configured one. -/
def resolvedSize (env : Dict String) (c : AsyncConfig) : Except LogError Nat :=
  match env.get? sizeVariable with
  | none => .ok c.ringBufferSize
  | some raw =>
    match parseSize? (Text.trim raw.toList) with
    | some (n + 1) => .ok (n + 1)
    | _ => .error (.invalidConfiguration sizeVariable
        ("expected a positive integer, got '" ++ raw ++ "'"))

end AsyncConfig

-- ============================================================= checking

namespace PipelineConfig

/-- Every appender's filters can be built. -/
def checkAppenders : List AppenderConfig → Except LogError Unit
  | [] => .ok ()
  | a :: rest =>
    match FilterConfig.buildOptional a.filters with
    | .error e => .error e
    | .ok _ => checkAppenders rest

/-- What can be checked without opening anything. -/
def validate (c : PipelineConfig) : Except LogError Unit := do
  let _ ← FilterConfig.buildChain c.filters
  checkAppenders c.appenders
  if c.async.ringBufferSize = 0 then
    throw (.invalidConfiguration "AsyncConfig" "ring_buffer_size must be at least 1")

/-- Read and check a description. -/
def ofText (text : String) : Except LogError PipelineConfig := do
  let c ← match Json.decode? decoder text with
    | some c => pure c
    | none => throw .json
  c.validate
  return c

/-- Read and check the description in a file. -/
def ofFile (path : String) (t : FileTree) : Except LogError PipelineConfig :=
  match t.readText path with
  | .error e => .error (.io ("reading config " ++ path) e.message e.message)
  | .ok text => ofText text

end PipelineConfig

end LogPipeline
