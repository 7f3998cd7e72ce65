/-
Formatters turn an event into bytes. The line format writes one readable
line, in which line breaks and tabs of the payload are escaped; the record
format writes one JSON object on a line, its members sorted by name. An
application may bring a formatter of its own, which can fail.
-/
import LogPipeline.Error
import LogPipeline.Event
import LogPipeline.Timestamp

namespace LogPipeline

-- ========================================================= line format

/-- How a character of the payload is written in a line: breaks and tabs
by their escapes, all else as it is. -/
def escapeBreak : Char → List Char
  | '\n' => ['\\', 'n']
  | '\r' => ['\\', 'r']
  | '\t' => ['\\', 't']
  | c => [c]

/-- A payload text on one line. -/
def escapeBreaks (s : String) : String := String.ofList (s.toList.flatMap escapeBreak)

/-- What a line shows besides the message. -/
structure LineFormat where
  timestamp : TimestampFormat
  /-- Show the level in its colour. -/
  colors : Bool
  thread : Bool
  context : Bool
  deriving DecidableEq

namespace LineFormat

def standard : LineFormat := ⟨.iso8601, false, true, true⟩

/-- The level, in five characters at least. -/
def levelText (f : LineFormat) (level : Level) : String :=
  let padded := Text.padRight 5 level.name
  if f.colors then level.color.paint padded else padded

def contextText (context : Dict String) : String :=
  if context.isEmpty then ""
  else " " ++ context.braced fun e => escapeBreaks e.1 ++ "=" ++ escapeBreaks e.2

def stackText (stack : List String) : String :=
  if stack.isEmpty then "" else " [" ++ " > ".intercalate (stack.map escapeBreaks) ++ "]"

def thrownText : Option Thrown → String
  | none => ""
  | some t =>
    " | error: " ++ escapeBreaks t.message
      ++ String.join (t.causes.map fun c => " | caused by: " ++ escapeBreaks c)

/-- The line of an event, with its line break. -/
def line (f : LineFormat) (e : EventSlot) : String :=
  "[" ++ f.timestamp.format e.millis ++ "] [" ++ f.levelText e.level ++ "] "
    ++ (if f.thread then "[" ++ e.thread ++ "] " else "")
    ++ (match e.marker with
        | some m => "[" ++ m.name ++ "] "
        | none => "")
    ++ (if e.logger.isEmpty then "" else e.logger ++ " - ")
    ++ escapeBreaks e.message.formatted
    ++ (if f.context then contextText e.context ++ stackText e.stack else "")
    ++ (match e.location with
        | some l => " (" ++ l.display ++ ")"
        | none => "")
    ++ thrownText e.thrown ++ "\n"

end LineFormat

-- ======================================================= record format

namespace RecordFormat

/-- The time as a number for the plain counts and as a text otherwise. -/
def timestampValue (f : TimestampFormat) (ms : Int) : Json :=
  match f with
  | .unix => .int (ms / 1000)
  | .unixMillis => .int ms
  | f => .str (f.format ms)

def contextValue (context : Dict String) : Json :=
  .obj (context.entries.map fun e => (e.1, .str e.2))

def locationValue (l : Location) : Json :=
  .obj [("column", .int l.column), ("file", .str l.file), ("line", .int l.line)]

def thrownValue (t : Thrown) : Json :=
  .obj ((if t.causes.isEmpty then [] else [("causes", .arr (t.causes.map .str))])
    ++ [("message", .str t.message)])

/-- A member that is there only if the event has it. -/
def member (name : String) : Option Json → List (String × Json)
  | some v => [(name, v)]
  | none => []

/-- `v`, unless the event has nothing to show there. -/
def unlessAbsent (absent : Bool) (v : Json) : Option Json := if absent then none else some v

/-- The object that stands for an event. -/
def value (f : TimestampFormat) (e : EventSlot) : Json :=
  .obj (member "context" (unlessAbsent e.context.isEmpty (contextValue e.context))
    ++ member "error" (e.thrown.map thrownValue)
    ++ [("level", .str e.level.name)]
    ++ member "location" (e.location.map locationValue)
    ++ [("logger", .str e.logger)]
    ++ member "marker" (e.marker.map fun m => .str m.name)
    ++ [("message", .str e.message.formatted)]
    ++ member "stack" (unlessAbsent e.stack.isEmpty (.arr (e.stack.map .str)))
    ++ [("thread", .str e.thread), ("timestamp", timestampValue f e.millis)])

/-- The object on a line of its own. -/
def line (f : TimestampFormat) (e : EventSlot) : String := (value f e).render ++ "\n"

end RecordFormat

-- ========================================================== formatters

/-- A formatter: what it appends for an event, and whether it failed. -/
inductive Formatter where
  | line (f : LineFormat)
  | record (timestamp : TimestampFormat)
  /-- A formatter of the application's own. It is told whether the event
  ends a batch, and may fail after it has appended something. -/
  | custom (append : EventSlot → Bool → String × Option LogError)

namespace Formatter

instance : Inhabited Formatter := ⟨line .standard⟩

/-- The text appended for an event and the failure, if any. -/
def append (f : Formatter) (e : EventSlot) (endOfBatch : Bool) : String × Option LogError :=
  match f with
  | line f => (f.line e, none)
  | record ts => (RecordFormat.line ts e, none)
  | custom g => g e endOfBatch

/-- Format an event behind what the buffer holds. What was appended stays
there even if the formatter failed. -/
def format (f : Formatter) (e : EventSlot) (endOfBatch : Bool) (out : ByteArray) :
    Except LogError Unit × ByteArray :=
  let (text, failure) := f.append e endOfBatch
  (failure.elim (.ok ()) .error, out ++ text.toUTF8)

/-- The bytes of one event, or why there are none. -/
def bytes (f : Formatter) (e : EventSlot) (endOfBatch : Bool) : Except LogError ByteArray :=
  match f.format e endOfBatch .empty with
  | (.ok (), out) => .ok out
  | (.error err, _) => .error err

def contentType : Formatter → String
  | record _ => "application/json"
  | _ => "text/plain"

end Formatter

/-- The formats that a configuration can name. -/
inductive OutputFormat where
  | text
  | json
  deriving DecidableEq, Inhabited

namespace OutputFormat

def name : OutputFormat → String
  | text => "text"
  | json => "json"

def decoder : Decoder OutputFormat := Json.oneOf [("text", text), ("json", json)]

/-- The formatter for a format; only text has colours. -/
def build (f : OutputFormat) (timestamp : TimestampFormat) (colors : Bool) : Formatter :=
  match f with
  | text => .line { LineFormat.standard with timestamp, colors }
  | json => .record timestamp

end OutputFormat

end LogPipeline
