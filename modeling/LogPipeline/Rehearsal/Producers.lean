/-
Producers at a ring, whose claims are held by name between claiming and
publishing. They would rather do something else than wait for room.
-/
import LogPipeline.Rehearsal.Held
import LogPipeline.Ring.Basic

namespace LogPipeline.Rehearsal

/-- What a producer is told who asks for a sequence. -/
inductive ClaimAnswer where
  | granted (sequence : Nat)
  | wouldBlock
  | refused (e : LogError)
  deriving DecidableEq

/-- A ring with the claims held on it. -/
structure Producers where
  ring : Ring
  held : Held Nat

namespace Producers

/-- Nothing claimed on this ring. -/
def on (ring : Ring) : Producers := ⟨ring, []⟩

/-- Ask for the next sequence. -/
def request (r : Ring) : ClaimAnswer × Ring :=
  match r.claim with
  | (.error e, r) => (.refused e, r)
  | (.ok none, r) => (.wouldBlock, r)
  | (.ok (some seq), r) => (.granted seq, r)

/-- Claim a sequence and hold it; a claim already held by that name is
abandoned after it. -/
def claim (name : String) (c : Producers) : ClaimAnswer × Producers :=
  match request c.ring with
  | (.granted seq, r) =>
    (.granted seq, ⟨(c.held.lookup name).elim r r.abandon, c.held.put name seq⟩)
  | (answer, r) => (answer, { c with ring := r })

/-- Claim a sequence and publish on it at once. -/
def put (v : EventValues) (c : Producers) : ClaimAnswer × Producers :=
  match request c.ring with
  | (.granted seq, r) => (.granted seq, { c with ring := r.publish seq v })
  | (answer, r) => (answer, { c with ring := r })

/-- Put several times; what the last one came to, if there was one. A
producer sees that it would have to wait before it puts anything. -/
def putTimes (v : EventValues) : (times : Nat) → Producers → Option ClaimAnswer × Producers
  | 0, c => (if (request c.ring).1 = .wouldBlock then some .wouldBlock else none, c)
  | n + 1, c =>
    let (answer, c) := (putTimes v n c).2.put v
    (some answer, c)

/-- Publish on the held claim, if there is one. -/
def publish (name : String) (v : EventValues) (c : Producers) : Bool × Producers :=
  match c.held.lookup name with
  | some seq => (true, ⟨c.ring.publish seq v, c.held.without name⟩)
  | none => (false, c)

/-- Abandon the held claim, if there is one. -/
def abandon (name : String) (c : Producers) : Bool × Producers :=
  match c.held.lookup name with
  | some seq => (true, ⟨c.ring.abandon seq, c.held.without name⟩)
  | none => (false, c)

end Producers

end LogPipeline.Rehearsal
