/-
Stand-ins for what an application brings along, to run a pipeline through
its failures. They act by scripts: the text `fail:x` stands for a
writer's error, `failother:x` for any other, `panic:x` and `panicstr:x`
for a panic with a text, `panicobj:` for one without, and all other texts
for success.
-/
import LogPipeline.Dispatcher
import LogPipeline.Formatter

namespace LogPipeline.Rehearsal

/-- What is known of a panic that carries no text. -/
def unknownPanic : String := "Unknown panic"

/-- The text before the first colon and the text behind it. -/
def cut : List Char → Option (List Char × List Char)
  | [] => none
  | ':' :: rest => some ([], rest)
  | c :: rest => (cut rest).map fun (a, b) => (c :: a, b)

/-- How a call ends that acts by a script. -/
def outcome (script : String) : Outcome :=
  match cut script.toList with
  | none => .done
  | some (verb, rest) =>
    let rest := String.ofList rest
    match String.ofList verb with
    | "fail" => .failed (.writer rest)
    | "failother" => .failed (.other rest)
    | "panic" | "panicstr" => .panicked rest
    | "panicobj" => .panicked unknownPanic
    | _ => .done

/-- A formatter that writes the bare message and a line break. Messages
that start with `refuse` it fails on, after it has written something. -/
def refusing : Formatter := .custom fun e _ =>
  let text := e.message.formatted
  if text.startsWith "refuse" then ("junk", some (.formatter "Refusing" text))
  else (text ++ "\n", none)

-- ============================================================ handlers

/-- What a scripted handler has been asked to do. -/
inductive HandlerNote where
  | event (text : String) (endOfBatch : Bool)
  | flush
  | shutdown
  deriving DecidableEq

/-- A handler that acts by the texts of its events, and by a script each
for flushes and the shutdown; without them it takes no notice of those. -/
structure ScriptedHandler where
  scripts : Option (String × String)
  notes : List HandlerNote

namespace ScriptedHandler

def note (n : HandlerNote) (script : String) (h : ScriptedHandler) : Call ScriptedHandler :=
  ⟨some (outcome script), [], { h with notes := h.notes ++ [n] }⟩

def handler : Handler ScriptedHandler where
  onEvent e endOfBatch h :=
    h.note (.event e.message.formatted endOfBatch) e.message.formatted
  onFlush h :=
    match h.scripts with
    | some (script, _) => h.note .flush script
    | none => ⟨some .done, [], h⟩
  onShutdown h :=
    match h.scripts with
    | some (_, script) => h.note .shutdown script
    | none => ⟨some .done, [], h⟩
  resume _ := none

end ScriptedHandler

end LogPipeline.Rehearsal
