/-
The ring that producers hand events over on. Sequences grow forever, and
sequence `s` lives in cell `s % capacity`. A producer first reserves a
sequence; the reservation is granted once the consumer has released the
cell's previous generation. It is resolved by publishing an event into
the cell or by abandoning it, which leaves the cell void. Either way the
cell is stamped with the number after its sequence, and that stamp is how
the consumer tells generations apart.

The one consumer takes sequences in order, passes over void ones, and
sees an event only while it is lent out; releasing it frees the cell.

Every operation here is one indivisible step, so runs in which producers
and the consumer take turns are folds of these operations.
-/
import LogPipeline.Error
import LogPipeline.Event
import LogPipeline.Ring.Cells

namespace LogPipeline

/-- A cell of the ring: its slot, and the number after the sequence that
was last resolved in it. -/
structure RingCell where
  slot : EventSlot
  stamp : Nat
  deriving DecidableEq

instance : Inhabited RingCell := ⟨⟨.fresh, 0⟩⟩

structure Ring where
  capacity : Nat
  capacity_pos : 0 < capacity
  /-- The next sequence to reserve. -/
  claimed : Nat
  /-- The next sequence to consume; those before it are released. -/
  consumed : Nat
  closed : Bool
  /-- The consumer has been taken. -/
  taken : Bool
  /-- The event at `consumed` is lent to the consumer. -/
  lent : Bool
  cells : Cells RingCell

namespace Ring

/-- The most slots that may be asked for. -/
def maxSize : Nat := 16777216

/-- The least power of two that is not below the size, and two at least. -/
def roundUp (size : Nat) : Nat := Nat.pow 2 ((max 2 size - 1).log2 + 1)

/-- Rounding up goes to a power of two that is large enough, and to two at
least. -/
theorem max_le_roundUp (size : Nat) : max 2 size ≤ roundUp size := by
  have hlt : max 2 size - 1 < roundUp size := Nat.lt_log2_self
  omega

theorem two_le_roundUp (size : Nat) : 2 ≤ roundUp size :=
  Nat.le_trans (Nat.le_max_left 2 size) (max_le_roundUp size)

/-- An open ring without events. -/
def ofSize (size : Nat) : Ring where
  capacity := roundUp size
  capacity_pos := Nat.lt_of_lt_of_le Nat.zero_lt_two (two_le_roundUp size)
  claimed := 0
  consumed := 0
  closed := false
  taken := false
  lent := false
  cells := .blank

/-- A ring of the size asked for, if that size is allowed. -/
def create (size : Nat) : Except LogError Ring :=
  if size = 0 ∨ maxSize < size then
    .error (.invalidConfiguration "RingBuffer"
      ("size must be between 1 and " ++ Nat.repr maxSize ++ ", got " ++ Nat.repr size))
  else .ok (ofSize size)

instance : Inhabited Ring := ⟨ofSize 2⟩

-- ============================================================ looking

/-- The cell a sequence lives in. -/
def index (r : Ring) (seq : Nat) : Nat := seq % r.capacity

def cellAt (r : Ring) (seq : Nat) : RingCell := r.cells.get (r.index seq)

def slotAt (r : Ring) (seq : Nat) : EventSlot := (r.cellAt seq).slot

/-- Sequences reserved and not released yet. -/
def backlog (r : Ring) : Nat := r.claimed - r.consumed

def remaining (r : Ring) : Nat := r.capacity - r.backlog

/-- The sequence has been resolved: published, or abandoned. -/
def isResolved (r : Ring) (seq : Nat) : Bool := (r.cellAt seq).stamp == seq + 1

/-- An event has been published at the sequence. -/
def hasEventAt (r : Ring) (seq : Nat) : Bool := r.isResolved seq && !(r.slotAt seq).isVoid

/-- The previous generation of the sequence's cell has been released. -/
def isFree (r : Ring) (seq : Nat) : Bool := seq < r.consumed + r.capacity

/-- Nothing that was reserved is left to consume. -/
def isCaughtUp (r : Ring) : Bool := r.claimed ≤ r.consumed

/-- The consumer has something to read or to pass over. -/
def hasAvailable (r : Ring) : Bool := r.isResolved r.consumed

-- =========================================================== producers

/-- Take the next sequence; a closed ring gives none. -/
def reserve (r : Ring) : Option (Nat × Ring) :=
  if r.closed then none else some (r.claimed, { r with claimed := r.claimed + 1 })

/-- Write the cell of a sequence and stamp it. -/
def resolve (r : Ring) (seq : Nat) (slot : EventSlot) : Ring :=
  { r with cells := r.cells.set (r.index seq) ⟨slot, seq + 1⟩ }

/-- Publish an event under a granted sequence. -/
def publish (r : Ring) (seq : Nat) (v : EventValues) : Ring :=
  r.resolve seq ((r.slotAt seq).setValues v)

/-- Give a granted sequence up; its cell stays void. -/
def abandon (r : Ring) (seq : Nat) : Ring := r.resolve seq (r.slotAt seq).clear

/-- What a producer with a reserved sequence is told. -/
inductive Answer where
  /-- The cell is the producer's until the sequence is resolved. -/
  | granted
  /-- The ring is closed. -/
  | refused
  /-- The cell is not free yet. -/
  | waiting
  deriving DecidableEq

/-- Ask for the cell of a reserved sequence. A closed ring refuses: at
once if its consumer is gone, and otherwise when the cell is free, which
is then left void so that the consumer gets past it. -/
def confirm (r : Ring) (seq : Nat) : Answer × Ring :=
  if r.isFree seq then
    if r.closed then (.refused, r.abandon seq) else (.granted, r)
  else if r.closed && !r.taken then (.refused, r) else (.waiting, r)

/-- Reserve a sequence and have it granted, unless that would mean to wait. -/
def claim (r : Ring) : Except LogError (Option Nat) × Ring :=
  if r.closed then (.error .stopped, r)
  else if r.isFree r.claimed then (.ok (some r.claimed), { r with claimed := r.claimed + 1 })
  else (.ok none, r)

/-- No sequence is given out from now on. -/
def close (r : Ring) : Ring := { r with closed := true }

/-- A producer that waits for the cell of its sequence with an event in hand. -/
structure Waiter where
  sequence : Nat
  values : EventValues

/-- Let a waiting producer try again: the sequence it has published, an
error if the ring is closed, or nothing if it still waits. -/
def retry (r : Ring) (w : Waiter) : Option (Except LogError Nat) × Ring :=
  match r.confirm w.sequence with
  | (.granted, r) => (some (.ok w.sequence), r.publish w.sequence w.values)
  | (.refused, r) => (some (.error .stopped), r)
  | (.waiting, r) => (none, r)

/-- Let named producers try again, in order. Those that have got an answer
are listed with it, and those that still wait are kept. -/
def retryAll {ι : Type} : List (ι × Waiter) → Ring →
    List (ι × Except LogError Nat) × List (ι × Waiter) × Ring
  | [], r => ([], [], r)
  | (i, w) :: rest, r =>
    let (answer, r) := r.retry w
    let (answered, waiting, r) := retryAll rest r
    match answer with
    | some a => ((i, a) :: answered, waiting, r)
    | none => (answered, (i, w) :: waiting, r)

-- ============================================================ consumer

/-- Take the consumer, of which there is one. -/
def take (r : Ring) : Option Ring := if r.taken then none else some { r with taken := true }

/-- Give the consumer back; another one goes on where it stopped. -/
def untake (r : Ring) : Ring := { r with taken := false }

/-- Free the cell of the next sequence. -/
def release (r : Ring) : Ring := { r with consumed := r.consumed + 1, lent := false }

/-- Release the void sequences in front of the consumer. -/
def skipVoid : (fuel : Nat) → Ring → Ring
  | 0, r => r
  | fuel + 1, r =>
    if r.isResolved r.consumed && (r.slotAt r.consumed).isVoid then skipVoid fuel r.release else r

/-- An event lent to the consumer. It ends a batch when no event follows
it at the moment it is taken. -/
structure Lent where
  sequence : Nat
  endOfBatch : Bool
  slot : EventSlot
  deriving DecidableEq

/-- Lend out the event at the next sequence. -/
def lend (r : Ring) : Lent × Ring :=
  let endOfBatch := !r.hasEventAt (r.consumed + 1)
  let slot := { r.slotAt r.consumed with endOfBatch }
  (⟨r.consumed, endOfBatch, slot⟩, { r.resolve r.consumed slot with lent := true })

/-- Lend out the next event, if one is published. -/
def tryNext (r : Ring) : Option Lent × Ring :=
  let r := skipVoid r.backlog r
  if r.hasEventAt r.consumed then
    let (e, r) := r.lend
    (some e, r)
  else (none, r)

/-- At most `fuel` events that can be read, each released after it was lent. -/
def drainFor : (fuel : Nat) → Ring → List Lent × Ring
  | 0, r => ([], r)
  | fuel + 1, r =>
    match r.tryNext with
    | (none, r) => ([], r)
    | (some e, r) =>
      let (es, r) := drainFor fuel r.release
      (e :: es, r)

/-- Every event that can be read, and the ring without them. -/
def drain (r : Ring) : List Lent × Ring := drainFor r.backlog r

/-- As `drainFor`, but while an event is lent `visit` may let producers
work on the ring. -/
def drainWith {σ : Type} (visit : Lent → Ring → σ → Ring × σ) :
    (fuel : Nat) → Ring → σ → List Lent × Ring × σ
  | 0, r, s => ([], r, s)
  | fuel + 1, r, s =>
    match r.tryNext with
    | (none, r) => ([], r, s)
    | (some e, r) =>
      let (r, s) := visit e r s
      let (es, r, s) := drainWith visit fuel r.release s
      (e :: es, r, s)

end Ring

end LogPipeline
