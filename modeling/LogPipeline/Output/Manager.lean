/-
An output manager: a byte buffer of fixed capacity in front of a sink.
Three things send the buffered bytes on, each on its own: a chunk that
does not fit, a manager that flushes after every write, and the end of a
batch. Bytes that the sink refused are dropped and not written again.

A call goes through all its steps whatever the sink answers, and tells
the first error.
-/
import LogPipeline.Output.Sink

namespace LogPipeline

structure Manager where
  name : String
  /-- The most bytes that are kept; without any, every chunk goes straight on. -/
  capacity : Nat
  immediateFlush : Bool
  /-- Attributes that count more than those of the sink. -/
  attributes : Dict String
  buffer : ByteArray
  closed : Bool
  /-- Bytes that the sink has taken. -/
  bytesWritten : Nat
  flushes : Nat

namespace Manager

/-- The capacity of managers that ask for none. -/
def defaultCapacity : Nat := 262144

/-- The most bytes that a buffer can be asked to hold. Asking for more is a
panic, which is the business of those who have managers made. -/
def maxCapacity : Nat := 9223372036854775807

/-- What the panic says. -/
def overflow : String := "capacity overflow"

/-- An open manager with an empty buffer, of a capacity that a buffer can have. -/
def new (name : String) (capacity : Nat) (immediateFlush : Bool)
    (attributes : Dict String := .empty) : Manager where
  name := name
  capacity := capacity
  immediateFlush := immediateFlush
  attributes := attributes
  buffer := .empty
  closed := false
  bytesWritten := 0
  flushes := 0

instance : Inhabited Manager := ⟨new "" 0 false⟩

/-- The attributes of the sink, and over them the manager's own. -/
def contentFormat {W : Type} (m : Manager) (k : Sink W) : Dict String :=
  k.contentFormat.insertAll m.attributes.entries

variable {W : Type}

/-- What a call has come to: its result, the manager and the world. -/
abbrev Step (W : Type) := Except LogError Unit × Manager × W

/-- Hand a non-empty byte string to the sink, and count it if it was taken. -/
def emit (k : Sink W) (bytes : ByteArray) (m : Manager) (w : W) : Step W :=
  match k.write bytes w with
  | (.ok (), w) => (.ok (), { m with bytesWritten := m.bytesWritten + bytes.size }, w)
  | (.error e, w) => (.error e, m, w)

/-- Empty the buffer into the sink, whether the sink takes it or not. -/
def drainBuffer (k : Sink W) (m : Manager) (w : W) : Step W :=
  if m.buffer.isEmpty then (.ok (), m, w)
  else emit k m.buffer { m with buffer := .empty } w

/-- Empty the buffer, then flush the sink. -/
def push (k : Sink W) (m : Manager) (w : W) : Step W :=
  let (drained, m, w) := drainBuffer k m w
  let (flushed, w) := k.flush w
  (firstError drained flushed, { m with flushes := m.flushes + 1 }, w)

/-- Make room for a chunk: if it does not fit, the buffer goes first. -/
def makeRoom (k : Sink W) (bytes : ByteArray) (m : Manager) (w : W) : Step W :=
  if m.capacity - m.buffer.size < bytes.size then drainBuffer k m w else (.ok (), m, w)

/-- Put a chunk into the buffer; one that is larger than the whole buffer
goes straight to the sink. -/
def accept (k : Sink W) (bytes : ByteArray) (m : Manager) (w : W) : Step W :=
  if m.capacity < bytes.size then emit k bytes m w
  else (.ok (), { m with buffer := m.buffer ++ bytes }, w)

/-- Write a chunk, and push what is buffered if the batch ends here or
every write is to be flushed. -/
def write (k : Sink W) (bytes : ByteArray) (endOfBatch : Bool) (m : Manager) (w : W) : Step W :=
  if m.closed then (.error (.managerClosed m.name), m, w)
  else
    let (roomMade, m, w) := makeRoom k bytes m w
    let (accepted, m, w) := accept k bytes m w
    let (pushed, m, w) :=
      if m.immediateFlush || endOfBatch then push k m w else (.ok (), m, w)
    (firstError (firstError roomMade accepted) pushed, m, w)

/-- Push what is buffered. A closed manager has nothing to push. -/
def flush (k : Sink W) (m : Manager) (w : W) : Step W :=
  if m.closed then (.ok (), m, w) else push k m w

/-- Push what is buffered and close the sink; later writes are refused. -/
def close (k : Sink W) (m : Manager) (w : W) : Step W :=
  if m.closed then (.ok (), m, w)
  else
    let (pushed, m, w) := push k { m with closed := true } w
    let (closed, w) := k.close w
    (firstError pushed closed, m, w)

end Manager

end LogPipeline
