/-
Scripted appenders. Each call is noted and then acts by a script; an
append acts by the text of its message. A gate can hold appenders up
between the two, so that a dispatcher stands still in the middle of a
round.
-/
import LogPipeline.Appender.Set
import LogPipeline.Rehearsal.Script

namespace LogPipeline.Rehearsal

structure ScriptedAppender where
  name : String
  filter : Option FilterChain
  /-- The gate holds up its appends. -/
  gated : Bool
  /-- The script of flushes; `block` lets the gate hold them up. -/
  onFlush : String
  /-- The script of the stop, if it is more than a flush. -/
  onStop : Option String
  /-- Readers of its notes want the whole event, and not the message alone. -/
  full : Bool

/-- The gate that holds appenders up while it is closed. -/
structure Gate where
  closed : Bool
  /-- Appends that have come to the gate. -/
  entered : Nat
  /-- Appends that may pass the closed gate. -/
  admitted : Nat

/-- What scripted appenders share: their notes, and the gate. -/
structure Stage where
  notes : List (ScriptedAppender × AppenderCall)
  gate : Gate

namespace Stage

/-- Nothing noted, and the gate open. -/
def initial : Stage := ⟨[], ⟨false, 0, 0⟩⟩

def closeGate (s : Stage) : Stage := { s with gate := ⟨true, 0, 0⟩ }

def openGate (s : Stage) : Stage := { s with gate := { s.gate with closed := false } }

/-- Let those pass that stand at the gate, and no more. -/
def admitEntered (s : Stage) : Stage :=
  { s with gate := { s.gate with admitted := s.gate.entered } }

end Stage

namespace ScriptedAppender

/-- The call that is noted: a stop without a script is a flush. -/
def noted (a : ScriptedAppender) : AppenderCall → AppenderCall
  | .stop => if a.onStop.isSome then .stop else .flush
  | c => c

/-- The appender's calls pass the gate one by one. -/
def meetsGate (a : ScriptedAppender) : AppenderCall → Bool
  | .append .. => a.gated
  | _ => false

def enter (c : AppenderCall) (a : ScriptedAppender) (s : Stage) : Stage :=
  { notes := s.notes ++ [(a, a.noted c)]
    gate := if a.meetsGate c then { s.gate with entered := s.gate.entered + 1 } else s.gate }

def isHeld (c : AppenderCall) (a : ScriptedAppender) (s : Stage) : Bool :=
  s.gate.closed && match a.noted c with
    | .append .. => a.gated && s.gate.admitted < s.gate.entered
    | .flush => a.onFlush == "block"
    | .stop => false

/-- The script that a call acts by. -/
def script (c : AppenderCall) (a : ScriptedAppender) : String :=
  match a.noted c with
  | .append e _ => e.message.formatted
  | .flush => a.onFlush
  | .stop => a.onStop.getD ""

def ops : AppenderOps ScriptedAppender Stage where
  name := name
  filter := filter
  enter := enter
  isHeld := isHeld
  finish c a s := (outcome (a.script c), s)
  drop _ s := ([], s)

end ScriptedAppender

end LogPipeline.Rehearsal
