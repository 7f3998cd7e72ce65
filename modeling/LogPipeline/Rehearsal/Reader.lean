/-
Scripts of rehearsals, piece by piece: markers, messages, events, filters
and formatters as a script describes them in JSON. What a script leaves
out has a default.
-/
import LogPipeline.Config.Check
import LogPipeline.Json.Access
import LogPipeline.Rehearsal.Script
import LogPipeline.Text.Hex

namespace LogPipeline.Rehearsal

namespace Reader

def level? (v : Json) (key : String) : Option Level := (v.text? key).bind Level.ofName?

def levelAt (v : Json) (key : String) : Level := (level? v key).getD .info

def level (v : Json) : Level := levelAt v "level"

-- ============================================================== events

/-- A marker: its name, or an object that has its parents too. -/
def marker : Json → Marker
  | .str s => .mk s []
  | v => .mk (v.textOr "" "name") ((v.items "parents").attach.map fun p => marker p.1)
termination_by v => sizeOf v
decreasing_by exact Json.sizeOf_lt_of_mem_items p.2

def markerAt? (v : Json) (key : String) : Option Marker :=
  if v.isGiven key then some (marker (v.value key)) else none

/-- The text of one parameter. -/
def param : Json → String
  | .str s => s
  | v => v.render

def params (v : Json) : List String := (v.items "params").map param

/-- A message: its text, or an object with a map, or with a pattern. -/
def message (v : Json) : Message :=
  match v, (v.value "map").asMapping? with
  | .str s, _ => .simple s
  | _, some m => .map m
  | .obj _, none => .parameterized (v.textOr "" "pattern") (params v)
  | _, _ => .simple ""

def thrown? (v : Json) : Option Thrown :=
  match v.strings "thrown" with
  | [] => none
  | t :: causes => some ⟨t, causes⟩

def substitutor (env : Dict String) (v : Json) : Substitutor :=
  if v.textOr "" "substitutor" == "none" then .verbatim
  else .expanding ⟨v.mapping "variables", env⟩

def properties (v : Json) : List Property :=
  (v.items "properties").map fun p =>
    ⟨p.textOr "" "name", p.textOr "" "value", p.flagOr false "substitutable"⟩

def location (v : Json) : Location :=
  ⟨v.textOr "" "file", v.naturalOr 0 "line", v.naturalOr 0 "column"⟩

def eventValues (env : Dict String) (v : Json) : EventValues where
  logger := v.textOr "app" "logger"
  level := level v
  message := message (v.value "msg")
  marker := markerAt? v "marker"
  facade := v.textOr "" "fqcn"
  thrown := thrown? v
  context := (v.value "context").asMapping?
  stack := v.strings "stack"
  thread := v.textOr "t" "thread"
  location := if v.isGiven "location" then some (location (v.value "location")) else none
  millis := (v.integer? "millis").getD 0
  includeLocation := v.flagOr false "include_location"
  properties := if v.isGiven "properties" then some ⟨properties v, substitutor env v⟩ else none

def event (env : Dict String) (v : Json) : EventSlot := .ofValues (eventValues env v)

-- ==================================================== bytes and formats

/-- Bytes, given as text or as digits, and so many times over. -/
def bytes (v : Json) : ByteArray :=
  let once := ((v.text? "hex").map Text.ofHex).getD (v.textOr "" "text").toUTF8
  (List.range (v.naturalOr 1 "repeat")).foldl (fun all _ => all ++ once) .empty

def timestamp (v : Json) : TimestampFormat :=
  (TimestampFormat.decoder .document (v.value "timestamp_format")).getD .iso8601

/-- A formatter; `colors` tells whether the terminal shows any. -/
def formatter (colors : Bool) (v : Json) : Formatter :=
  let ts := timestamp v
  let colors := v.flagOr false "colors" && colors
  match v.textOr "" "kind" with
  | "json" => .record ts
  | "text_build" => OutputFormat.text.build ts colors
  | "json_build" => OutputFormat.json.build ts colors
  | "refuse" => refusing
  | _ => .line ⟨ts, colors, v.flagOr true "thread", v.flagOr true "context"⟩

-- ============================================================= filters

/-- The answers of a filter, each its default unless it is named. -/
def answers (v : Json) : Answers :=
  let named (key : String) (dflt : FilterResult) : FilterResult :=
    ((v.text? key).bind FilterResult.ofName?).getD dflt
  ⟨named "on_match" Filter.defaultAnswers.onMatch,
    named "on_mismatch" Filter.defaultAnswers.onMismatch⟩

def filter (v : Json) : Except LogError Filter :=
  let onMatch := v.text? "on_match"
  let onMismatch := v.text? "on_mismatch"
  match v.textOr "" "type" with
  | "threshold" => Filter.thresholdOfNames (v.text? "level") onMatch onMismatch
  | "threshold_builder" =>
    .ok (.threshold ((level? v "level").getD Filter.defaultLevel) (answers v))
  | "marker" => Filter.markerOfNames (v.textOr "" "marker") onMatch onMismatch
  | "config" =>
    match Json.list FilterConfig.decoder .document (v.value "filters") with
    | some fs => (FilterConfig.buildChain fs).map .chain
    | none => .error .json
  | _ => ((v.items "filters").attach.mapM fun f => (filter f.1).map .builtin).map .chain
termination_by sizeOf v
decreasing_by exact Json.sizeOf_lt_of_mem_items f.2

/-- A chain of filters, if it is given. -/
def chainAt? (v : Json) (key : String) : Except LogError (Option FilterChain) :=
  if v.isGiven key then ((v.items key).mapM fun f => (filter f).map .builtin).map some
  else .ok none

end Reader

end LogPipeline.Rehearsal
