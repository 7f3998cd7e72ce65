/-
The payload of an event: a literal text, a pattern with placeholders, or
a map of strings. A map is written in one of four styles.
-/
import LogPipeline.Dict
import LogPipeline.Json.Decode

namespace LogPipeline

-- ======================================================= placeholders

/-- Put the params in place of the pattern's `{}` pairs, from left to
right; when they run out the remaining pairs stay, and surplus params
are left over. -/
def fillPlaceholders : List Char → List (List Char) → List Char
  | '{' :: '}' :: rest, p :: ps => p ++ fillPlaceholders rest ps
  | c :: rest, ps => c :: fillPlaceholders rest ps
  | [], _ => []

-- ======================================================== map messages

/-- A structured message: pairs of strings sorted by key. -/
abbrev MapMessage := Dict String

/-- The styles in which a map is written. -/
inductive MapFormat where
  /-- `key="value"` pairs with a space between them. -/
  | plain
  /-- A JSON object on one line. -/
  | json
  /-- One element per pair, each on its own line. -/
  | xml
  /-- The pairs of the plain style, in braces and with commas. -/
  | java
  deriving DecidableEq, Inhabited

namespace MapFormat

def decoder : Decoder MapFormat :=
  Json.oneOf [("default", plain), ("json", json), ("xml", xml), ("java", java)]

end MapFormat

namespace MapMessage

/-- `key="value"`, nothing escaped. -/
def pair (e : String × String) : String := e.1 ++ "=\"" ++ e.2 ++ "\""

/-- `"key":"value"`, escaped as in JSON. -/
def jsonPair (e : String × String) : String :=
  String.ofList (Json.quote e.1 ++ ':' :: Json.quote e.2)

def xmlEntry (e : String × String) : String :=
  "  <Entry key=" ++ e.1 ++ ">" ++ e.2 ++ "</Entry>\n"

/-- The text of a map in a style. -/
def format (m : MapMessage) : MapFormat → String
  | .plain => " ".intercalate (m.entries.map pair)
  | .json => m.braced jsonPair
  | .xml => "<Map>\n" ++ String.join (m.entries.map xmlEntry) ++ "</Map>"
  | .java => m.braced pair

/-- A map message in a document is a record with its pairs under `data`. -/
def decoder : Decoder MapMessage := fun pl v => do
  let (pl, fs) ← Json.fields ["data"] pl v
  match fs with
  | [data] => Json.required (Json.dict Json.text) pl data
  | _ => none

def toJson (m : MapMessage) : Json :=
  .obj [("data", .obj (m.entries.map fun e => (e.1, .str e.2)))]

end MapMessage

-- ============================================================ messages

/-- The payload of an event. -/
inductive Message where
  | simple (text : String)
  | parameterized (pattern : String) (params : List String)
  | map (m : MapMessage)
  deriving DecidableEq

namespace Message

instance : Inhabited Message := ⟨simple ""⟩

/-- The text before any param is put in. -/
def rawText : Message → String
  | simple text => text
  | parameterized pattern _ => pattern
  | map m => m.format .plain

/-- The text shown for the message. -/
def formatted : Message → String
  | simple text => text
  | parameterized pattern params =>
    String.ofList (fillPlaceholders pattern.toList (params.map String.toList))
  | map m => m.format .plain

def isEmpty : Message → Bool
  | simple text => text.isEmpty
  | parameterized pattern _ => pattern.isEmpty
  | map m => m.isEmpty

end Message

end LogPipeline
