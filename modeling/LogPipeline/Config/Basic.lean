/-
The description of one logger: its delivery mode, ring, filters,
properties and appenders. Names of levels and filter answers stay as they
were written, and are only understood when the description is checked.
-/
import LogPipeline.Devices
import LogPipeline.Filter
import LogPipeline.Formatter
import LogPipeline.Property

namespace LogPipeline

/-- How a producer passes the time until there is room. It makes no
difference to what is delivered. -/
inductive WaitStrategy where
  | block
  | yield
  | spin
  deriving DecidableEq, Inhabited

def WaitStrategy.name : WaitStrategy → String
  | block => "block"
  | yield => "yield"
  | spin => "spin"

/-- How events travel from producers to appenders. -/
inductive DeliveryMode where
  /-- Over a ring, to appenders that a dispatcher drives. -/
  | async
  /-- The producer drives the appenders; every event is a batch of its own. -/
  | sync
  deriving DecidableEq, Inhabited

def DeliveryMode.name : DeliveryMode → String
  | async => "async"
  | sync => "sync"

/-- The settings of ring and dispatcher. -/
structure AsyncConfig where
  ringBufferSize : Nat
  waitStrategy : WaitStrategy
  /-- Milliseconds. -/
  shutdownTimeout : Nat
  deriving DecidableEq

def AsyncConfig.standard : AsyncConfig := ⟨8192, .block, 5000⟩

/-- One filter of a chain. -/
inductive FilterConfig where
  | threshold (level onMatch onMismatch : Option String)
  | marker (marker : String) (onMatch onMismatch : Option String)
  deriving DecidableEq

structure FileConfig where
  name : Option String
  path : String
  /-- The manager's name, if it is not the path. -/
  manager : Option String
  append : Bool
  immediateFlush : Option Bool
  bufferSize : Option Nat
  /-- Lock the file around each write, which keeps other processes out and
  makes no difference to what is written. -/
  locking : Bool
  advertisedUri : Option String
  format : OutputFormat
  timestamp : TimestampFormat
  filters : List FilterConfig
  deriving DecidableEq

structure ConsoleConfig where
  name : Option String
  target : ConsoleTarget
  colors : Option Bool
  immediateFlush : Option Bool
  format : OutputFormat
  timestamp : TimestampFormat
  filters : List FilterConfig
  deriving DecidableEq

structure SocketConfig where
  name : Option String
  address : String
  /-- Milliseconds. -/
  writeTimeout : Option Nat
  immediateFlush : Option Bool
  bufferSize : Option Nat
  format : OutputFormat
  timestamp : TimestampFormat
  filters : List FilterConfig
  deriving DecidableEq

/-- One appender and the destination it writes to. -/
inductive AppenderConfig where
  | file (c : FileConfig)
  | console (c : ConsoleConfig)
  | socket (c : SocketConfig)
  deriving DecidableEq

namespace AppenderConfig

def kind : AppenderConfig → String
  | file _ => "file"
  | console _ => "console"
  | socket _ => "socket"

def filters : AppenderConfig → List FilterConfig
  | file c => c.filters
  | console c => c.filters
  | socket c => c.filters

end AppenderConfig

structure PipelineConfig where
  name : String
  mode : DeliveryMode
  async : AsyncConfig
  neutralPolicy : NeutralPolicy
  includeLocation : Bool
  filters : List FilterConfig
  properties : List Property
  /-- What `${name}` stands for in substitutable properties. -/
  vars : Dict String
  appenders : List AppenderConfig
  deriving DecidableEq

/-- What a description leaves out. -/
def PipelineConfig.standard : PipelineConfig where
  name := ""
  mode := .async
  async := .standard
  neutralPolicy := .record
  includeLocation := false
  filters := []
  properties := []
  vars := .empty
  appenders := []

end LogPipeline
