/-
What a script says of the appenders and the logger of a rehearsal, before
any of them is built.
-/
import LogPipeline.Logger.Build
import LogPipeline.Rehearsal.Appender
import LogPipeline.Rehearsal.Reader

namespace LogPipeline.Rehearsal

/-- What an appender is to be. -/
inductive AppenderPlan where
  /-- An appender of the library. Its memory record, if it has one, is the
  one known as `shared`, or a new one, and is known as `name` as well from
  then on. -/
  | managed (name : String) (shared : Option String) (d : Destination) (o : OutputOptions)
  | scripted (a : ScriptedAppender)

namespace Reader

/-- The layout of an output that is not given a formatter. -/
def layout (v : Json) (colors : Bool) : Formatter :=
  ((OutputFormat.decoder .document (v.value "format")).getD .text).build (timestamp v) colors

def consoleTarget (v : Json) : ConsoleTarget :=
  if v.textOr "" "target" == "stderr" then .stderr else .stdout

/-- Where an appender of this kind writes to, and its formatter if it is
not given one. -/
def destination? (colors : Bool) (v : Json) : Option (Destination × Option Formatter) :=
  match v.textOr "" "kind" with
  | "memory" => some (.memory (v.textOr "mem" "manager") none, none)
  | "file" =>
    some (.file (v.textOr "" "path") (v.text? "manager") (v.flagOr true "append")
      (v.text? "advertise_uri"), some (layout v false))
  | "console" =>
    some (.console (consoleTarget v), some (layout v (v.flagOr true "colors" && colors)))
  | "socket" =>
    some (.socket (v.textOr "" "address") (v.naturalOr 5000 "write_timeout_ms"),
      some (layout v false))
  | _ => none

def scriptedAppender (filter : Option FilterChain) (v : Json) : ScriptedAppender :=
  ⟨v.textOr "" "name", filter, v.flagOr false "gated", v.textOr "" "flush", v.text? "stop",
    v.flagOr false "full"⟩

/-- An appender, which is a scripted one if it is of no other kind. -/
def plan (colors : Bool) (v : Json) : Except LogError AppenderPlan := do
  let filter ← chainAt? v "filters"
  match destination? colors v with
  | none => return .scripted (scriptedAppender filter v)
  | some (d, standard) =>
    let f := if v.isGiven "formatter" then some (formatter colors (v.value "formatter"))
      else standard
    return .managed (v.textOr d.managerName "id") (v.text? "record") d
      ⟨v.text? "name", v.flag? "immediate_flush", v.natural? "buffer_capacity", f, filter⟩

def plans (colors : Bool) (v : Json) : List (Except LogError AppenderPlan) :=
  (v.items "appenders").map (plan colors)

/-- A logger. A chain comes before filters that are added to it, and only
an asynchronous logger has a ring to set up. -/
def parts (env : Environment) (v : Json) :
    Except LogError (LoggerParts (Except LogError AppenderPlan)) := do
  let chain ← chainAt? v "filter_chain"
  let added ← chainAt? v "filters"
  let isAsync := v.textOr "" "mode" == "async"
  return {
    name := v.textOr "" "name"
    facade := v.textOr Logger.standardFacade "fqcn"
    filter := chain.getD [] ++ added.getD []
    neutralPolicy := (NeutralPolicy.decoder .document (v.value "neutral_policy")).getD .record
    properties := properties v
    substitutor := if v.isGiven "substitutor" || v.isGiven "variables" then
      some (substitutor env.vars v) else none
    includeLocation := v.flagOr false "include_location"
    mode := if isAsync then .async else .sync
    async := if isAsync then (AsyncConfig.decoder .document (v.value "async")).getD .standard
      else .standard
    appenders := plans env.colors v }

end Reader

end LogPipeline.Rehearsal
