/-
Appenders and sets of them. What an appender does is told by its effect
on a state `S`; here only its calls and their outcomes matter.

A set runs errands over its members, one after another: deliver an event,
flush, or stop. Members are kept apart from each other: a call that fails
or panics is reported under the member's name, and the next member is
called all the same. The errand's result is made from the tally of what
went wrong.
-/
import LogPipeline.Error
import LogPipeline.Filter
import LogPipeline.Status

namespace LogPipeline

/-- The calls that an appender answers. -/
inductive AppenderCall where
  | append (e : EventSlot) (endOfBatch : Bool)
  | flush
  | stop
  deriving DecidableEq

/-- How appenders of a kind behave. A call has two halves, and between
them it may be held up; `drop` gives back what the appender holds. -/
structure AppenderOps (α S : Type) where
  name : α → String
  /-- The appender's own filter; a denial keeps an event from this appender only. -/
  filter : α → Option FilterChain
  enter : AppenderCall → α → S → S
  isHeld : AppenderCall → α → S → Bool
  finish : AppenderCall → α → S → Outcome × S
  drop : α → S → List StatusEntry × S

namespace AppenderOps

variable {α S : Type}

/-- A whole call that nothing holds up. -/
def call (ops : AppenderOps α S) (c : AppenderCall) (a : α) (s : S) : Outcome × S :=
  ops.finish c a (ops.enter c a s)

/-- The appender's filter denies the event. -/
def denies (ops : AppenderOps α S) (a : α) (e : EventSlot) : Bool :=
  (ops.filter a).any fun chain => chain.ask (.event e) == .deny

end AppenderOps

-- ============================================================= errands

/-- What a set does with all its members. -/
inductive Errand where
  | deliver (e : EventSlot) (endOfBatch : Bool)
  | flush
  | stop
  deriving DecidableEq

/-- What went wrong so far: how often, and first with which error. -/
structure Tally where
  failed : Nat
  first : Option LogError
  deriving DecidableEq

namespace Tally

def clean : Tally := ⟨0, none⟩

def add (t : Tally) (o : Outcome) : Tally :=
  match o.error? with
  | none => t
  | some e => ⟨t.failed + 1, t.first.or (some e)⟩

end Tally

namespace Errand

variable {α S : Type}

/-- The call that the errand makes on a member. A member that denies the
last event of a batch is flushed instead, so that what it has buffered
goes out; other events that it denies pass it by. -/
def callOn (ops : AppenderOps α S) (errand : Errand) (a : α) : Option AppenderCall :=
  match errand with
  | deliver e endOfBatch =>
    if ops.denies a e then (if endOfBatch then some .flush else none)
    else some (.append e endOfBatch)
  | flush => some .flush
  | stop => some .stop

/-- What a delivery calls its call. -/
def action : AppenderCall → String
  | .append .. => "append event"
  | .flush => "flush"
  | .stop => "stop"

/-- What is reported of a call that did not end well. -/
def complaint (errand : Errand) (name : String) (c : AppenderCall) : Outcome → List StatusEntry
  | .done => []
  | .failed e => [⟨.error, name, match errand with
      | deliver .. => "failed to " ++ action c ++ ": " ++ e.message
      | flush => "flush failed: " ++ e.message
      | stop => "stop failed: " ++ e.message⟩]
  | .panicked message => [⟨.error, name, match errand with
      | deliver .. => "panicked during " ++ action c ++ ": " ++ message
          ++ ". Other appenders continue to function."
      | flush => "panicked during flush: " ++ message
      | stop => "panicked during stop: " ++ message⟩]

/-- The result of an errand on `size` members. -/
def result (errand : Errand) (size : Nat) (t : Tally) : Except LogError Unit :=
  match errand with
  | deliver .. =>
    if t.failed = 0 then .ok ()
    else .error (.writer (Nat.repr t.failed ++ " of " ++ Nat.repr size ++ " appenders failed"))
  | flush | stop =>
    match t.first with
    | none => .ok ()
    | some e => .error e

/-- A stopped member is dropped at once. -/
def dismiss (ops : AppenderOps α S) (errand : Errand) (a : α) (s : S) : List StatusEntry × S :=
  match errand with
  | stop => ops.drop a s
  | _ => ([], s)

/-- The second half of a call on a member, and what follows from it. -/
def conclude (ops : AppenderOps α S) (errand : Errand) (c : AppenderCall) (a : α) (t : Tally)
    (s : S) : Tally × List StatusEntry × S :=
  let (o, s) := ops.finish c a s
  let (dropped, s) := errand.dismiss ops a s
  (t.add o, errand.complaint (ops.name a) c o ++ dropped, s)

/-- Run the errand on one member. -/
def visit (ops : AppenderOps α S) (errand : Errand) (a : α) (t : Tally) (s : S) :
    Tally × List StatusEntry × S :=
  match errand.callOn ops a with
  | none => (t, [], s)
  | some c => errand.conclude ops c a t (ops.enter c a s)

/-- Run the errand on members, one after another. -/
def visitAll (ops : AppenderOps α S) (errand : Errand) :
    List α → Tally → S → Tally × List StatusEntry × S
  | [], t, s => (t, [], s)
  | a :: rest, t, s =>
    let (t, reports, s) := errand.visit ops a t s
    let (t, others, s) := visitAll ops errand rest t s
    (t, reports ++ others, s)

end Errand

-- ================================================================ sets

/-- The appenders of one logger. -/
structure AppenderSet (α : Type) where
  members : List α

/-- What an errand has come to: its result, its reports, and the state. -/
structure ErrandResult (S : Type) where
  result : Except LogError Unit
  reports : List StatusEntry
  state : S

namespace AppenderSet

variable {α S : Type}

def size (set : AppenderSet α) : Nat := set.members.length

def isEmpty (set : AppenderSet α) : Bool := set.members.isEmpty

def names (ops : AppenderOps α S) (set : AppenderSet α) : List String := set.members.map ops.name

/-- Run an errand on all members. -/
def run (ops : AppenderOps α S) (errand : Errand) (set : AppenderSet α) (s : S) :
    ErrandResult S :=
  let (t, reports, s) := errand.visitAll ops set.members .clean s
  ⟨errand.result set.size t, reports, s⟩

/-- Show an event to every member whose filter admits it. -/
def deliver (ops : AppenderOps α S) (e : EventSlot) (endOfBatch : Bool) (set : AppenderSet α)
    (s : S) : ErrandResult S :=
  set.run ops (.deliver e endOfBatch) s

def flush (ops : AppenderOps α S) (set : AppenderSet α) (s : S) : ErrandResult S :=
  set.run ops .flush s

/-- Stop and drop every member; nothing is left in the set. -/
def stop (ops : AppenderOps α S) (set : AppenderSet α) (s : S) : ErrandResult S × AppenderSet α :=
  (set.run ops .stop s, ⟨[]⟩)

/-- Drop a set. Members that are still in it are stopped. -/
def drop (ops : AppenderOps α S) (set : AppenderSet α) (s : S) : List StatusEntry × S :=
  let r := set.run ops .stop s
  (r.reports, r.state)

/-- Drop members that no set has taken over. -/
def dropUnused (ops : AppenderOps α S) : List α → S → List StatusEntry × S
  | [], s => ([], s)
  | a :: rest, s =>
    let (reports, s) := ops.drop a s
    let (others, s) := dropUnused ops rest s
    (reports ++ others, s)

end AppenderSet

end LogPipeline
