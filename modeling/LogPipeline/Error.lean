/-
What can go wrong in the pipeline, by cause, and the one function that
words it.
-/

namespace LogPipeline

/-- The causes of failure. An input or output error keeps the system's own
text as its origin. -/
inductive LogError where
  /-- An operating-system call failed while doing something nameable. -/
  | io (operation message origin : String)
  /-- An operating-system call failed. -/
  | system (origin : String)
  /-- A text is not JSON of the expected shape. -/
  | json
  | invalidConfiguration (component message : String)
  | managerCreation (name message : String)
  | managerClosed (name : String)
  | formatter (kind message : String)
  | writer (message : String)
  /-- The logger no longer takes events. -/
  | stopped
  | other (message : String)
  deriving DecidableEq, Inhabited

namespace LogError

/-- The wording shown to operators. The text of a JSON error is not fixed. -/
def message : LogError → String
  | io operation message _ => "IO error while " ++ operation ++ ": " ++ message
  | system origin => "IO error: " ++ origin
  | json => "JSON error"
  | invalidConfiguration component message =>
    "Invalid configuration for " ++ component ++ ": " ++ message
  | managerCreation name message =>
    "Unable to create manager '" ++ name ++ "': " ++ message
  | managerClosed name => "Manager '" ++ name ++ "' is closed"
  | formatter kind message => "Formatter error (" ++ kind ++ "): " ++ message
  | writer message => "Writer error: " ++ message
  | stopped => "Logger already stopped"
  | other message => message

/-- The text of the error underneath, where there is one. -/
def origin? : LogError → Option String
  | io _ _ origin => some origin
  | system origin => some origin
  | _ => none

end LogError

-- ========================================================== outcomes

/-- How a call into foreign code (a handler, an appender) ends: normally,
with an error, or by a panic that carries a text. -/
inductive Outcome where
  | done
  | failed (e : LogError)
  | panicked (message : String)
  deriving DecidableEq, Inhabited

namespace Outcome

/-- A call that can only return or fail. -/
def ofExcept : Except LogError Unit → Outcome
  | .ok () => done
  | .error e => failed e

/-- The error a caller is told; a panic is told as a writer's error. -/
def error? : Outcome → Option LogError
  | done => none
  | failed e => some e
  | panicked message => some (.writer message)

def isDone : Outcome → Bool
  | done => true
  | _ => false

end Outcome

/-- Why a call does not give what it was made for: an error that its caller
is told, or a panic. -/
inductive Failure where
  | told (e : LogError)
  | panicked (message : String)
  deriving DecidableEq, Inhabited

/-- The first error of two calls made one after the other, whatever the first one did. -/
def firstError (a b : Except LogError Unit) : Except LogError Unit :=
  match a with
  | .ok () => b
  | .error e => .error e

end LogPipeline
