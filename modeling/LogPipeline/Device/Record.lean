/-
Memory records: destinations that keep every write apart, so that a
reader sees exactly which writes and flushes reached them.
-/
import LogPipeline.Error
import LogPipeline.Text.Lossy

namespace LogPipeline

structure MemoryRecord where
  writes : Array ByteArray
  flushes : Nat
  closed : Bool
  /-- Writes fail for the time being. -/
  refusing : Bool

namespace MemoryRecord

def empty : MemoryRecord := ⟨#[], 0, false, false⟩

instance : Inhabited MemoryRecord := ⟨empty⟩

def write (bytes : ByteArray) (r : MemoryRecord) : Except LogError Unit × MemoryRecord :=
  if r.refusing then (.error (.writer "memory sink refused write"), r)
  else (.ok (), { r with writes := r.writes.push bytes })

def flush (r : MemoryRecord) : Except LogError Unit × MemoryRecord :=
  (.ok (), { r with flushes := r.flushes + 1 })

def close (r : MemoryRecord) : Except LogError Unit × MemoryRecord :=
  (.ok (), { r with closed := true })

/-- All bytes received, in order. -/
def contents (r : MemoryRecord) : ByteArray := r.writes.foldl (· ++ ·) .empty

/-- All bytes received, as text. -/
def contentsText (r : MemoryRecord) : String := Text.lossy r.contents

/-- Forget what was written. -/
def clear (r : MemoryRecord) : MemoryRecord := { r with writes := #[] }

end MemoryRecord

end LogPipeline
