/-
Severity levels. A lower severity is more specific: `ERROR` is at least
as specific as `WARN`, `DEBUG` is not.
-/
import LogPipeline.Text.Name
import LogPipeline.Text.Column

namespace LogPipeline

/-- The severity of an event, or the threshold of a filter. -/
inductive Level where
  | off
  | fatal
  | error
  | warn
  | info
  | debug
  | trace
  | all
  deriving DecidableEq, Inhabited

namespace Level

/-- Every level, the most specific first. -/
def values : List Level := [off, fatal, error, warn, info, debug, trace, all]

/-- The level of events and messages that name none. -/
def standard : Level := info

/-- The number levels are compared by; smaller is more specific. -/
def severity : Level → Nat
  | off => 0
  | fatal => 100
  | error => 200
  | warn => 300
  | info => 400
  | debug => 500
  | trace => 600
  | all => 2147483647

/-- The severity is at most that of `other`. -/
def isAtLeastAsSpecificAs (l other : Level) : Bool := l.severity ≤ other.severity

def name : Level → String
  | off => "OFF"
  | fatal => "FATAL"
  | error => "ERROR"
  | warn => "WARN"
  | info => "INFO"
  | debug => "DEBUG"
  | trace => "TRACE"
  | all => "ALL"

/-- The level a capital name stands for; `WARNING` is a second name of `WARN`. -/
def ofKey? : String → Option Level
  | "OFF" => some off
  | "FATAL" => some fatal
  | "ERROR" => some error
  | "WARN" => some warn
  | "WARNING" => some warn
  | "INFO" => some info
  | "DEBUG" => some debug
  | "TRACE" => some trace
  | "ALL" => some all
  | _ => none

/-- Read a level's name, in any case and between blanks. -/
def ofName? (s : String) : Option Level := ofKey? (Text.nameKey s)

/-- What is said of a text that names no level. -/
def invalidName (s : String) : String := "Invalid log level: '" ++ s ++ "'"

/-- The place among `values`. -/
def index (l : Level) : Nat := values.idxOf l

/-- The name set into a column, with spaces on the right unless the
column says otherwise. -/
def display (col : Text.Column) (l : Level) : String :=
  String.ofList (col.set l.name.toList)

end Level

-- =========================================================== colours

/-- The terminal colours that level names are shown in. -/
inductive Color where
  | brightBlack
  | blue
  | green
  | yellow
  | red
  | brightRed
  deriving DecidableEq

namespace Color

def name : Color → String
  | brightBlack => "BrightBlack"
  | blue => "Blue"
  | green => "Green"
  | yellow => "Yellow"
  | red => "Red"
  | brightRed => "BrightRed"

/-- The number of the terminal's select-graphic-rendition sequence. -/
def code : Color → String
  | brightBlack => "90"
  | blue => "34"
  | green => "32"
  | yellow => "33"
  | red => "31"
  | brightRed => "91"

/-- `s` between the sequence that sets the colour and the one that resets it. -/
def paint (c : Color) (s : String) : String :=
  "\x1b[" ++ c.code ++ "m" ++ s ++ "\x1b[0m"

end Color

def Level.color : Level → Color
  | .trace | .all => .brightBlack
  | .debug => .blue
  | .info => .green
  | .warn => .yellow
  | .error => .red
  | .fatal | .off => .brightRed

end LogPipeline
