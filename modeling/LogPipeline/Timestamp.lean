/-
Timestamps: how the millisecond count of an event is written. All
formats but the plain counts fall back to the millisecond count outside
the range of dates.
-/
import LogPipeline.Timestamp.Pattern
import LogPipeline.Json.Decode

namespace LogPipeline

/-- The formats of timestamps. -/
inductive TimestampFormat where
  /-- `2025-01-08T10:30:45.123Z` -/
  | iso8601
  /-- `2025-01-08T10:30:45.123+00:00` -/
  | rfc3339
  /-- Seconds since the epoch. -/
  | unix
  /-- Milliseconds since the epoch. -/
  | unixMillis
  /-- By a date pattern. -/
  | custom (pattern : String)
  deriving DecidableEq

namespace TimestampFormat

instance : Inhabited TimestampFormat := ⟨iso8601⟩

/-- Date, `T` and time to the millisecond. -/
def dateTime (m : Moment) : List Char :=
  Pattern.yearPlaces .zero m.date.year ++ '-' :: Pattern.twoPlaces .zero m.date.month
    ++ '-' :: Pattern.twoPlaces .zero m.date.day ++ 'T' :: Pattern.twoPlaces .zero m.hour
    ++ ':' :: Pattern.twoPlaces .zero m.minute ++ ':' :: Pattern.twoPlaces .zero m.second
    ++ '.' :: Text.padNat '0' 3 m.milli

/-- A moment in the format; the plain counts are told apart in `chars`. -/
def momentChars (m : Moment) : TimestampFormat → List Char
  | iso8601 => dateTime m ++ ['Z']
  | rfc3339 => dateTime m ++ ['+', '0', '0', ':', '0', '0']
  | custom pattern => Pattern.render pattern m
  | unix => Json.intChars (m.toMillis / 1000)
  | unixMillis => Json.intChars m.toMillis

/-- The characters of a timestamp. -/
def chars (ms : Int) : TimestampFormat → List Char
  | unix => Json.intChars (ms / 1000)
  | unixMillis => Json.intChars ms
  | f => if Moment.isInRange ms then momentChars (Moment.ofMillis ms) f else Json.intChars ms

/-- `ms` milliseconds since the epoch, written in the format. -/
def format (f : TimestampFormat) (ms : Int) : String := String.ofList (f.chars ms)

/-- The format writes a count and not a date. -/
def isNumeric : TimestampFormat → Bool
  | unix | unixMillis => true
  | _ => false

def toJson : TimestampFormat → Json
  | iso8601 => .str "Iso8601"
  | rfc3339 => .str "Rfc3339"
  | unix => .str "Unix"
  | unixMillis => .str "UnixMillis"
  | custom pattern => .obj [("Custom", .str pattern)]

def decoder : Decoder TimestampFormat := fun pl v => do
  let (name, attached) ← Json.variant pl v
  match name, attached with
  | "Custom", some (pl, v) => return custom (← Json.text pl v)
  | "Iso8601", a => if Json.isBare a then some iso8601 else none
  | "Rfc3339", a => if Json.isBare a then some rfc3339 else none
  | "Unix", a => if Json.isBare a then some unix else none
  | "UnixMillis", a => if Json.isBare a then some unixMillis else none
  | _, _ => none

end TimestampFormat

end LogPipeline
