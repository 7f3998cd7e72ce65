/-
Admission filters. A filter is a tree: a leaf answers by the event's
level or marker, a chain asks its members in order and takes the first
decisive answer. A filter can be asked about an event in four shapes
(raw text with params, any displayable payload, a message, a whole
event), and the answer depends on the level and the marker alone. A chain
may also have members that an application brings, which answer as they
like.

What a neutral answer means is up to the owner of the chain, who has a
`NeutralPolicy`.
-/
import LogPipeline.Error
import LogPipeline.Event

namespace LogPipeline

-- ============================================================= answers

/-- The answer of a filter. -/
inductive FilterResult where
  /-- Record the event and ask no further. -/
  | accept
  /-- No decision. -/
  | neutral
  /-- Discard the event and ask no further. -/
  | deny
  deriving DecidableEq, Inhabited

namespace FilterResult

def name : FilterResult → String
  | accept => "ACCEPT"
  | neutral => "NEUTRAL"
  | deny => "DENY"

def ofKey? : String → Option FilterResult
  | "ACCEPT" => some accept
  | "NEUTRAL" => some neutral
  | "DENY" => some deny
  | _ => none

/-- Read an answer's name, in any case and between blanks. -/
def ofName? (s : String) : Option FilterResult := ofKey? (Text.nameKey s)

/-- What is said of a text that names no answer. -/
def invalidName (s : String) : String := "Invalid filter result: '" ++ s ++ "'"

def isDecisive : FilterResult → Bool
  | neutral => false
  | _ => true

end FilterResult

/-- What becomes of an event that the chain is neutral about. -/
inductive NeutralPolicy where
  | record
  | discard
  /-- Record it if its level is at least as specific. -/
  | atLeast (level : Level)
  deriving DecidableEq, Inhabited

namespace NeutralPolicy

def admits : NeutralPolicy → Level → Bool
  | record, _ => true
  | discard, _ => false
  | atLeast threshold, level => level.isAtLeastAsSpecificAs threshold

/-- Record or discard, given the chain's answer. -/
def decide (p : NeutralPolicy) (r : FilterResult) (level : Level) : Bool :=
  match r with
  | .accept => true
  | .deny => false
  | .neutral => p.admits level

def toJson : NeutralPolicy → Json
  | record => .str "record"
  | discard => .str "discard"
  | atLeast level => .obj [("at_least", .str level.name)]

end NeutralPolicy

/-- A level's name in a document. -/
def Level.decoder : Decoder Level := fun pl v => (Json.text pl v).bind Level.ofName?

/-- An answer's name in a document. -/
def FilterResult.decoder : Decoder FilterResult := fun pl v =>
  (Json.text pl v).bind FilterResult.ofName?

def NeutralPolicy.decoder : Decoder NeutralPolicy := fun pl v => do
  let (name, attached) ← Json.variant pl v
  match name, attached with
  | "at_least", some (pl, v) => return atLeast (← Level.decoder pl v)
  | "record", a => if Json.isBare a then some record else none
  | "discard", a => if Json.isBare a then some discard else none
  | _, _ => none

-- ============================================================= filters

/-- The two answers of a leaf. -/
structure Answers where
  onMatch : FilterResult
  onMismatch : FilterResult
  deriving DecidableEq, Inhabited

/-- The answer for a predicate's outcome. -/
def Answers.pick (a : Answers) (matched : Bool) : FilterResult :=
  if matched then a.onMatch else a.onMismatch

/-- A question to a filter: what is known of an event when it is asked. -/
inductive Query where
  /-- Raw message text and params that are not put in yet. -/
  | text (logger : String) (level : Level) (marker : Option Marker) (raw : String)
      (params : List String)
  /-- A displayable payload and an error. -/
  | object (logger : String) (level : Level) (marker : Option Marker) (shown : String)
      (thrown : Option Thrown)
  | message (logger : String) (level : Level) (marker : Option Marker) (msg : Message)
      (thrown : Option Thrown)
  | event (slot : EventSlot)

namespace Query

def level : Query → Level
  | text _ level _ _ _ | object _ level _ _ _ | message _ level _ _ _ => level
  | event slot => slot.level

def marker : Query → Option Marker
  | text _ _ marker _ _ | object _ _ marker _ _ | message _ _ marker _ _ => marker
  | event slot => slot.marker

end Query

mutual

/-- A filter tree. -/
inductive Filter where
  /-- Matches events whose level is at least as specific. -/
  | threshold (level : Level) (answers : Answers)
  /-- Matches events whose marker is, or descends from, the named one. -/
  | marker (name : String) (answers : Answers)
  /-- Takes the first decisive answer of its members. -/
  | chain (members : List FilterMember)

/-- A member of a chain. -/
inductive FilterMember where
  | builtin (f : Filter)
  /-- One of the application's own. -/
  | custom (judge : Query → FilterResult)

end

instance : Inhabited Filter := ⟨.chain []⟩

/-- A filter chain as its owner holds it. -/
abbrev FilterChain := List FilterMember

namespace Filter

mutual

/-- The answer to a question. -/
def ask (q : Query) : Filter → FilterResult
  | threshold level answers => answers.pick (q.level.isAtLeastAsSpecificAs level)
  | marker name answers => answers.pick (q.marker.any (·.isInstanceOf name))
  | chain members => askAll q members

def askMember (q : Query) : FilterMember → FilterResult
  | .builtin f => ask q f
  | .custom judge => judge q

/-- The answer of a chain's members. -/
def askAll (q : Query) : List FilterMember → FilterResult
  | [] => .neutral
  | f :: fs => if (askMember q f).isDecisive then askMember q f else askAll q fs

end

/-- The answer a filter gives for a match. A chain has none of its own. -/
def onMatch : Filter → FilterResult
  | threshold _ a | marker _ a => a.onMatch
  | chain _ => .neutral

def onMismatch : Filter → FilterResult
  | threshold _ a | marker _ a => a.onMismatch
  | chain _ => .neutral

/-- The answer for a predicate's outcome. -/
def resultFor (f : Filter) (matched : Bool) : FilterResult :=
  if matched then f.onMatch else f.onMismatch

end Filter

/-- The answer of a chain. -/
def FilterChain.ask (q : Query) (chain : FilterChain) : FilterResult := Filter.askAll q chain

-- ================================================= filters from names

/-- An answer by name; without a name it is `dflt`. -/
def FilterResult.ofName (component : String) (dflt : FilterResult) :
    Option String → Except LogError FilterResult
  | none => .ok dflt
  | some s =>
    match FilterResult.ofName? s with
    | some r => .ok r
    | none => .error (.invalidConfiguration component (FilterResult.invalidName s))

namespace Filter

/-- What a threshold filter takes for names that are not given. -/
def defaultLevel : Level := .error
def defaultAnswers : Answers := ⟨.neutral, .deny⟩

/-- A threshold filter from names. The level is read first, then the two answers. -/
def thresholdOfNames (level onMatch onMismatch : Option String) : Except LogError Filter := do
  let level ← match level with
    | none => pure defaultLevel
    | some s =>
      match Level.ofName? s with
      | some l => pure l
      | none => throw (.invalidConfiguration "ThresholdFilter" (Level.invalidName s))
  let m ← FilterResult.ofName "ThresholdFilter" defaultAnswers.onMatch onMatch
  let n ← FilterResult.ofName "ThresholdFilter" defaultAnswers.onMismatch onMismatch
  return threshold level ⟨m, n⟩

/-- A marker filter from names. The marker's name may not be empty. -/
def markerOfNames (name : String) (onMatch onMismatch : Option String) :
    Except LogError Filter := do
  if name.isEmpty then
    throw (.invalidConfiguration "MarkerFilter" "marker name is required")
  let m ← FilterResult.ofName "MarkerFilter" defaultAnswers.onMatch onMatch
  let n ← FilterResult.ofName "MarkerFilter" defaultAnswers.onMismatch onMismatch
  return marker name ⟨m, n⟩

end Filter

end LogPipeline
