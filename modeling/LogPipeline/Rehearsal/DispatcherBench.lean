/-
A dispatcher on the bench, between producers with claims and a scripted
handler. The ring is kept with the claims and lent to the dispatcher for
as long as it works.
-/
import LogPipeline.Rehearsal.Producers
import LogPipeline.Rehearsal.Script

namespace LogPipeline.Rehearsal

structure DispatcherBench where
  producers : Producers
  /-- The dispatcher, if there is one; its ring is the one that the producers share. -/
  dispatcher : Option Dispatcher
  shared : Shared ScriptedHandler

namespace DispatcherBench

def on (ring : Ring) : DispatcherBench := ⟨.on ring, none, ⟨.zero, .silent, ⟨none, []⟩⟩⟩

/-- Forget the handler's notes. -/
def clearNotes (b : DispatcherBench) : DispatcherBench :=
  { b with shared := { b.shared with handler := { b.shared.handler with notes := [] } } }

/-- The dispatcher with the ring as it is now. -/
def current? (b : DispatcherBench) : Option Dispatcher :=
  b.dispatcher.map fun d => { d with ring := b.producers.ring }

/-- What a dispatcher has come to. -/
def keep (b : DispatcherBench) (r : Dispatcher × Shared ScriptedHandler) : DispatcherBench :=
  ⟨{ b.producers with ring := r.1.ring }, some r.1, r.2⟩

/-- Start a dispatcher whose handler has these scripts. -/
def start (scripts : Option (String × String)) (b : DispatcherBench) :
    Except LogError Unit × DispatcherBench :=
  match Dispatcher.start b.producers.ring with
  | .error e => (.error e, b)
  | .ok d => (.ok (), b.keep (d, { b.shared with handler := ⟨scripts, []⟩ }))

/-- Let the dispatcher run until it rests. -/
def settle (b : DispatcherBench) : DispatcherBench :=
  b.current?.elim b fun d => b.keep (d.settle ScriptedHandler.handler b.shared)

/-- Ask for a flush: its ticket, and the dispatcher that has seen to it. -/
def flush (d : Dispatcher) (b : DispatcherBench) : Nat × Dispatcher × DispatcherBench :=
  let (ticket, d) := d.requestFlush
  let r := d.settle ScriptedHandler.handler b.shared
  (ticket, r.1, b.keep r)

def shutdown (timeout : Nat) (d : Dispatcher) (b : DispatcherBench) : Bool × DispatcherBench :=
  let (clean, r) := d.shutdown ScriptedHandler.handler timeout b.shared
  (clean, b.keep r)

def drop (d : Dispatcher) (b : DispatcherBench) : DispatcherBench :=
  { b.keep (d.drop ScriptedHandler.handler b.shared) with dispatcher := none }

end DispatcherBench

end LogPipeline.Rehearsal
