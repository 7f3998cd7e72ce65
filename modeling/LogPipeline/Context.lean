/-
The diagnostic context of a thread: a map of keys and a stack of labels
that a logger copies into every event. A guard undoes one entry when it
is dropped: a key guard removes its key, a label guard cuts the stack
back to the depth below its label.
-/
import LogPipeline.Dict

namespace LogPipeline

structure ThreadContext where
  map : Dict String
  /-- The labels, the bottom one first. -/
  stack : List String
  deriving DecidableEq, Inhabited

/-- What dropping a guard undoes. -/
inductive ContextGuard where
  | key (key : String)
  /-- The stack's depth with the label on it. -/
  | label (depth : Nat)
  deriving DecidableEq

namespace ThreadContext

def empty : ThreadContext := ⟨.empty, []⟩

def put (c : ThreadContext) (key value : String) : ThreadContext :=
  { c with map := c.map.insert key value }

def get? (c : ThreadContext) (key : String) : Option String := c.map.get? key

def remove (c : ThreadContext) (key : String) : ThreadContext :=
  { c with map := c.map.erase key }

def push (c : ThreadContext) (label : String) : ThreadContext :=
  { c with stack := c.stack ++ [label] }

def peek? (c : ThreadContext) : Option String := c.stack.getLast?

def pop (c : ThreadContext) : Option String × ThreadContext :=
  (c.peek?, { c with stack := c.stack.dropLast })

def depth (c : ThreadContext) : Nat := c.stack.length

/-- Set a key until the guard is dropped. -/
def putScoped (c : ThreadContext) (key value : String) : ContextGuard × ThreadContext :=
  (.key key, c.put key value)

/-- Push a label until the guard is dropped. -/
def pushScoped (c : ThreadContext) (label : String) : ContextGuard × ThreadContext :=
  (.label (c.push label).depth, c.push label)

/-- Drop a guard. -/
def release (c : ThreadContext) : ContextGuard → ThreadContext
  | .key key => c.remove key
  | .label depth => { c with stack := c.stack.take (depth - 1) }

end ThreadContext

end LogPipeline
