/-
Memory records whose flush and close can be made to fail. A flush that
fails is not counted, and a close that fails leaves the record open.
-/
import LogPipeline.Device.Record
import LogPipeline.Output.Sink

namespace LogPipeline.Rehearsal

structure FaultyRecord where
  record : MemoryRecord
  failFlush : Bool
  failClose : Bool

instance : Inhabited FaultyRecord := ⟨⟨.empty, false, false⟩⟩

/-- What can be made to fail. -/
inductive Fault where
  | write
  | flush
  | close
  deriving DecidableEq

namespace FaultyRecord

def set (fault : Fault) (on : Bool) (f : FaultyRecord) : FaultyRecord :=
  match fault with
  | .write => { f with record := { f.record with refusing := on } }
  | .flush => { f with failFlush := on }
  | .close => { f with failClose := on }

/-- An operation of the record, unless it is to fail. -/
def guarded (fails : Bool) (message : String)
    (op : MemoryRecord → Except LogError Unit × MemoryRecord) (f : FaultyRecord) :
    Except LogError Unit × FaultyRecord :=
  if fails then (.error (.writer message), f)
  else
    let (r, record) := op f.record
    (r, { f with record })

def write (bytes : ByteArray) (f : FaultyRecord) : Except LogError Unit × FaultyRecord :=
  f.guarded false "" (MemoryRecord.write bytes)

def flush (f : FaultyRecord) : Except LogError Unit × FaultyRecord :=
  f.guarded f.failFlush "flush refused" MemoryRecord.flush

def close (f : FaultyRecord) : Except LogError Unit × FaultyRecord :=
  f.guarded f.failClose "close refused" MemoryRecord.close

end FaultyRecord

/-- The sinks that a record can stand behind. -/
inductive SinkKind where
  /-- Flush and close never fail, and nothing is advertised. -/
  | memory
  | faulty
  /-- Closing is flushing once more, and nothing is advertised. -/
  | plain
  deriving DecidableEq

/-- The sink of a kind, which acts on the `n`th of many records. -/
def sink (kind : SinkKind) (contentFormat : Dict String) (n : Nat) : Sink (Array FaultyRecord) :=
  let on (op : FaultyRecord → Except LogError Unit × FaultyRecord) (w : Array FaultyRecord) :=
    let (r, f) := op (w.getD n default)
    (r, w.setIfInBounds n f)
  let sound := FaultyRecord.guarded false ""
  match kind with
  | .memory =>
    ⟨fun bytes => on (FaultyRecord.write bytes), on (sound MemoryRecord.flush),
      on (sound MemoryRecord.close), .empty⟩
  | .faulty =>
    ⟨fun bytes => on (FaultyRecord.write bytes), on FaultyRecord.flush, on FaultyRecord.close,
      contentFormat⟩
  | .plain =>
    ⟨fun bytes => on (FaultyRecord.write bytes), on FaultyRecord.flush, on FaultyRecord.flush,
      .empty⟩

end LogPipeline.Rehearsal
