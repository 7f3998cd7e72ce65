/-
Spans of time for readers: in seconds from one second on, in milliseconds
below, without needless zeros.
-/

namespace LogPipeline.Text

/-- The decimals of `ms` thousandths, from none to three. -/
def thousandths (ms : Nat) : String :=
  if ms = 0 then ""
  else if ms % 100 = 0 then "." ++ Nat.repr (ms / 100)
  else
    let tens := ms / 10
    if ms % 10 = 0 then "." ++ (if tens < 10 then "0" else "") ++ Nat.repr tens
    else "." ++ (if ms < 100 then "0" else "") ++ (if ms < 10 then "0" else "") ++ Nat.repr ms

/-- A span of milliseconds. An empty one is told in nanoseconds. -/
def duration (ms : Nat) : String :=
  if ms = 0 then "0ns"
  else if ms < 1000 then Nat.repr ms ++ "ms"
  else Nat.repr (ms / 1000) ++ thousandths (ms % 1000) ++ "s"

end LogPipeline.Text
