/-
A ring on the bench: producers with claims, producers who wait on a full
ring, and a consumer that is taken and given back.
-/
import LogPipeline.Rehearsal.Producers

namespace LogPipeline.Rehearsal

structure RingBench where
  producers : Producers
  /-- The bench has the consumer. -/
  consuming : Bool
  waiting : Held Ring.Waiter
  /-- What those were told who had to wait. -/
  answered : Held (Except LogError Nat)

namespace RingBench

def on (ring : Ring) : RingBench := ⟨.on ring, false, [], []⟩

def ring (b : RingBench) : Ring := b.producers.ring

def withRing (r : Ring) (b : RingBench) : RingBench :=
  { b with producers := { b.producers with ring := r } }

/-- Take the consumer, unless it is taken. -/
def take (b : RingBench) : Option RingBench :=
  b.ring.take.map fun r => { b.withRing r with consuming := true }

/-- Give the consumer back, if the bench has it. -/
def untake (b : RingBench) : Bool × RingBench :=
  (b.consuming, if b.consuming then { b.withRing b.ring.untake with consuming := false } else b)

/-- A producer that waits for as long as it takes. -/
def blockedPut (name : String) (v : EventValues) (b : RingBench) : RingBench :=
  match b.ring.reserve with
  | none => { b with answered := b.answered.put name (.error .stopped) }
  | some (seq, r) => { b.withRing r with waiting := b.waiting ++ [(name, ⟨seq, v⟩)] }

/-- Let the waiting producers try again. -/
def retry (b : RingBench) : RingBench :=
  let (answered, waiting, r) := Ring.retryAll b.waiting b.ring
  { b.withRing r with waiting, answered := answered ++ b.answered }

/-- The next event, and where the consumer stood while it had it. -/
def next (b : RingBench) : Option (Ring.Lent × Nat) × RingBench :=
  match b.ring.tryNext with
  | (none, r) => (none, b.withRing r)
  | (some e, r) => (some (e, r.consumed), b.withRing r.release)

def drain (b : RingBench) : List Ring.Lent × RingBench :=
  (b.ring.drain.1, b.withRing b.ring.drain.2)

/-- Drain while a producer, after each event that is lent, puts one where
there is room, `times` in all. -/
def drainPut (times : Nat) (v : EventValues) (b : RingBench) : List Ring.Lent × RingBench :=
  let visit (_ : Ring.Lent) (r : Ring) (left : Nat) : Ring × Nat :=
    if left = 0 then (r, 0)
    else match Producers.put v (.on r) with
      | (.granted _, c) => (c.ring, left - 1)
      | (_, c) => (c.ring, left)
  let (es, r, _) := b.ring.drainWith visit (b.ring.backlog + times + 1) times
  (es, b.withRing r)

end RingBench

end LogPipeline.Rehearsal
