/-
Managed outputs: a formatter in front of a manager. Every appender of the
library's own is one. An event is formatted first and then written in one
piece; if it cannot be formatted and the batch ends with it, the manager
is flushed all the same.
-/
import LogPipeline.Appender.Set
import LogPipeline.Formatter
import LogPipeline.Output.Registry

namespace LogPipeline

structure ManagedOutput where
  name : String
  handle : ManagerHandle
  formatter : Formatter
  filter : Option FilterChain

namespace ManagedOutput

variable {W : Type}

/-- A chain without members is as good as none. -/
def usable (filter : Option FilterChain) : Option FilterChain :=
  filter.filter fun chain => !chain.isEmpty

def append (e : EventSlot) (endOfBatch : Bool) (o : ManagedOutput) (r : Registry W) :
    Except LogError Unit × Registry W :=
  match o.formatter.bytes e endOfBatch with
  | .ok bytes => r.write o.handle bytes endOfBatch
  | .error err =>
    if endOfBatch then
      let (flushed, r) := r.flush o.handle
      (firstError flushed (.error err), r)
    else (.error err, r)

/-- Answer a call. Stopping an output is flushing it. -/
def answer (c : AppenderCall) (o : ManagedOutput) (r : Registry W) :
    Except LogError Unit × Registry W :=
  match c with
  | .append e endOfBatch => o.append e endOfBatch r
  | .flush | .stop => r.flush o.handle

/-- Managed outputs as appenders. They are never held up. -/
def ops : AppenderOps ManagedOutput (Registry W) where
  name := name
  filter := filter
  enter _ _ r := r
  isHeld _ _ _ := false
  finish c o r :=
    let (result, r) := o.answer c r
    (.ofExcept result, r)
  drop o r := r.release o.handle

end ManagedOutput

end LogPipeline
