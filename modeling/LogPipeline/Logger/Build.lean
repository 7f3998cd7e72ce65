/-
Building loggers, from parts or from a checked description. A build that
fails gives back every manager it has taken; a destination that cannot be
opened only costs its own appender. The dispatcher's thread is taken to
start.
-/
import LogPipeline.Appender.Mixed
import LogPipeline.Config.Check
import LogPipeline.Logger.Basic

namespace LogPipeline

/-- What surrounds the program: its environment variables, and whether
its terminal shows colours. -/
structure Environment where
  vars : Dict String
  colors : Bool

/-- The parts of a logger. -/
structure LoggerParts (α : Type) where
  name : String
  facade : String
  filter : FilterChain
  neutralPolicy : NeutralPolicy
  properties : List Property
  /-- How properties are resolved, if not with the environment alone. -/
  substitutor : Option Substitutor
  includeLocation : Bool
  mode : DeliveryMode
  async : AsyncConfig
  appenders : List α

namespace LoggerParts

/-- A synchronous logger without filters and appenders. -/
def standard {α : Type} : LoggerParts α where
  name := ""
  facade := Logger.standardFacade
  filter := []
  neutralPolicy := .record
  properties := []
  substitutor := none
  includeLocation := false
  mode := .sync
  async := .standard
  appenders := []

end LoggerParts

namespace Logger

variable {α S : Type}

/-- What is said of properties whose references have not all been resolved. -/
def unresolved (s : Substitutor) (properties : List Property) : List StatusEntry :=
  (properties.filter fun p => p.substitutable && hasReference (s.resolve p.value).toList).map
    fun p => ⟨.warn, "PropertySet", "property '" ++ p.name ++ "' has unresolved references: "
      ++ s.resolve p.value⟩

/-- A logger that accepts events and has seen none. -/
def fresh (settings : LoggerSettings) (backend : Backend α) : Logger α where
  settings := settings
  backend := backend
  accepting := true
  cleanShutdown := true
  metrics := .zero
  waiters := []

/-- The way to deliver that the parts ask for. -/
def startBackend (env : Dict String) (p : LoggerParts α) : Except LogError (Backend α) :=
  match p.mode with
  | .sync => .ok (.sync (some (.fresh, ⟨p.appenders⟩)))
  | .async => do
    let size ← p.async.resolvedSize env
    let ring ← Ring.create size
    let d ← Dispatcher.start ring
    return .async d ⟨p.appenders⟩ none

def settingsOf (env : Dict String) (p : LoggerParts α) : LoggerSettings :=
  let substitutor := p.substitutor.getD (.expanding ⟨.empty, env⟩)
  { name := p.name, facade := p.facade, filter := p.filter, neutralPolicy := p.neutralPolicy,
    properties := if p.properties.isEmpty then none else some ⟨p.properties, substitutor⟩,
    includeLocation := p.includeLocation, shutdownTimeout := p.async.shutdownTimeout }

/-- Put a logger together. If its ring cannot be made, its appenders are
stopped and dropped. -/
def build (ops : AppenderOps α S) (env : Dict String) (p : LoggerParts α) (site : Site S) :
    Except LogError (Logger α) × Site S :=
  let substitutor := p.substitutor.getD (.expanding ⟨.empty, env⟩)
  let site := site.report (unresolved substitutor p.properties)
  match startBackend env p with
  | .ok backend => (.ok (fresh (settingsOf env p) backend), site)
  | .error e => (.error e, site.absorb ((AppenderSet.mk p.appenders).stop ops site.world).1)

/-- A synchronous logger without appenders, whatever the environment. -/
def standard : Logger α :=
  fresh (settingsOf .empty (LoggerParts.standard : LoggerParts α)) (.sync (some (.fresh, ⟨[]⟩)))

end Logger

-- ================================================= from a description

namespace AppenderConfig

def destination : AppenderConfig → Destination
  | file c => .file c.path c.manager c.append c.advertisedUri
  | console c => .console c.target
  | socket c => .socket c.address (c.writeTimeout.getD 5000)

/-- What the appender is given; lines on a console are coloured unless
that is turned off, or the terminal shows no colours. -/
def options (env : Environment) (filter : Option FilterChain) : AppenderConfig → OutputOptions
  | file c => ⟨c.name, c.immediateFlush, c.bufferSize, some (c.format.build c.timestamp false),
      filter⟩
  | console c => ⟨c.name, c.immediateFlush, none,
      some (c.format.build c.timestamp (c.colors.getD true && env.colors)), filter⟩
  | socket c => ⟨c.name, c.immediateFlush, c.bufferSize,
      some (c.format.build c.timestamp false), filter⟩

/-- Build the appender. -/
def build (env : Environment) (c : AppenderConfig) (r : Registry Devices) :
    Except Failure Appender × List StatusEntry × Registry Devices :=
  match FilterConfig.buildOptional c.filters with
  | .error e => (.error (.told e), [], r)
  | .ok filter => Appender.build c.destination (c.options env filter) r

/-- What is said of an appender whose destination cannot be opened. -/
def leftOut (c : AppenderConfig) (e : LogError) : StatusEntry :=
  ⟨.error, "PipelineConfig", c.kind ++ " appender left out: " ++ e.message⟩

/-- Build appenders in order. One whose manager cannot be made is left
out; on any other error, and on a panic, those built before it are dropped. -/
def buildAll (env : Environment) : List AppenderConfig → (built : List Appender) →
    Registry Devices → Except Failure (List Appender) × List StatusEntry × Registry Devices
  | [], built, r => (.ok built, [], r)
  | c :: rest, built, r =>
    match c.build env r with
    | (.ok a, reports, r) =>
      let (result, others, r) := buildAll env rest (built ++ [a]) r
      (result, reports ++ others, r)
    | (.error (.told (.managerCreation name message)), reports, r) =>
      let (result, others, r) := buildAll env rest built r
      (result, reports ++ c.leftOut (.managerCreation name message) :: others, r)
    | (.error f, reports, r) =>
      let (dropped, r) := AppenderSet.dropUnused Appender.ops built r
      (.error f, reports ++ dropped, r)

end AppenderConfig

namespace PipelineConfig

/-- The parts of the logger that is described, given its filters and appenders. -/
def parts {α : Type} (env : Environment) (c : PipelineConfig) (filter : FilterChain)
    (appenders : List α) : LoggerParts α where
  name := c.name
  facade := Logger.standardFacade
  filter := filter
  neutralPolicy := c.neutralPolicy
  properties := c.properties
  substitutor := some (.expanding ⟨c.vars, env.vars⟩)
  includeLocation := c.includeLocation
  mode := c.mode
  async := if c.mode = .async then c.async else .standard
  appenders := appenders

end PipelineConfig

namespace Logger

variable {C K : Type}

/-- The logger of a description. -/
def ofConfig (custom : AppenderOps C K) (env : Environment) (c : PipelineConfig)
    (site : Site (Host K)) : Except Failure (Logger (MixedAppender C)) × Site (Host K) :=
  match c.validate with
  | .error e => (.error (.told e), site)
  | .ok () =>
    match FilterConfig.buildChain c.filters with
    | .error e => (.error (.told e), site)
    | .ok filter =>
      let (result, reports, r) := AppenderConfig.buildAll env c.appenders [] site.world.registry
      let site : Site (Host K) :=
        ⟨site.status.logAll reports, { site.world with registry := r }⟩
      match result with
      | .error f => (.error f, site)
      | .ok appenders =>
        let (result, site) := build (MixedAppender.ops custom) env.vars
          (c.parts env filter (appenders.map .managed)) site
        (result.mapError .told, site)

end Logger

end LogPipeline
