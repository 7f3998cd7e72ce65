/-
Events and the reusable slots that carry them. A slot is written over as
a whole by `EventSlot.setValues`, so nothing of an earlier occupant
survives; `EventSlot.clear` empties it when a claim is abandoned.
-/
import LogPipeline.Level
import LogPipeline.Marker
import LogPipeline.Message
import LogPipeline.Property

namespace LogPipeline

/-- An error attached to an event: its text and the texts of its causes,
the nearest first. -/
structure Thrown where
  message : String
  causes : List String
  deriving DecidableEq, Inhabited

namespace Thrown

def texts (t : Thrown) : List String := t.message :: t.causes

end Thrown

/-- Where a logging call stands. -/
structure Location where
  file : String
  line : Nat
  column : Nat
  deriving DecidableEq, Inhabited

namespace Location

def display (l : Location) : String :=
  l.file ++ ":" ++ Nat.repr l.line ++ ":" ++ Nat.repr l.column

end Location

/-- What a producer supplies for one event. -/
structure EventValues where
  logger : String
  level : Level
  message : Message
  marker : Option Marker
  /-- The qualified name of the facade that the call went through. -/
  facade : String
  thrown : Option Thrown
  context : Option (Dict String)
  stack : List String
  thread : String
  location : Option Location
  millis : Int
  includeLocation : Bool
  properties : Option PropertySet

/-- The reusable record of one event. -/
structure EventSlot where
  logger : String
  marker : Option Marker
  facade : String
  level : Level
  message : Message
  thrown : Option Thrown
  context : Dict String
  stack : List String
  thread : String
  location : Option Location
  millis : Int
  includeLocation : Bool
  endOfBatch : Bool
  /-- The slot carries no event; its claim was abandoned, or it was never used. -/
  isVoid : Bool
  deriving DecidableEq

namespace EventSlot

/-- A slot that has carried nothing yet. -/
def fresh : EventSlot where
  logger := ""
  marker := none
  facade := ""
  level := .off
  message := .simple ""
  thrown := none
  context := .empty
  stack := []
  thread := ""
  location := none
  millis := 0
  includeLocation := false
  endOfBatch := false
  isVoid := true

instance : Inhabited EventSlot := ⟨fresh⟩

/-- The context map of an event: what the producer gave, with the
configured properties merged in. -/
def contextOf (v : EventValues) : Dict String :=
  match v.properties with
  | some ps => ps.merge v.context
  | none => v.context.getD .empty

/-- The event that `v` describes. -/
def ofValues (v : EventValues) : EventSlot where
  logger := v.logger
  marker := v.marker
  facade := v.facade
  level := v.level
  message := v.message
  thrown := v.thrown
  context := contextOf v
  stack := v.stack
  thread := v.thread
  location := if v.includeLocation then v.location else none
  millis := v.millis
  includeLocation := v.includeLocation
  endOfBatch := false
  isVoid := false

/-- Write over every field of the slot. The map and the stack are emptied
and filled again in place. -/
def setValues (slot : EventSlot) (v : EventValues) : EventSlot :=
  let slot := { slot with logger := v.logger, marker := v.marker, facade := v.facade,
                          level := v.level, message := v.message, thrown := v.thrown }
  let slot := { slot with context := (Dict.empty : Dict String) }
  let slot := match v.context with
    | some map => { slot with context := slot.context.insertAll map.entries }
    | none => slot
  let slot := match v.properties with
    | some ps => { slot with context := mergeProperties slot.context ps.properties ps.substitutor }
    | none => slot
  { slot with stack := v.stack, thread := v.thread,
              location := if v.includeLocation then v.location else none,
              millis := v.millis, includeLocation := v.includeLocation,
              endOfBatch := false, isVoid := false }

/-- Drop what the slot refers to and mark it as carrying no event. The
logger, level, thread and time of the last event stay behind. -/
def clear (slot : EventSlot) : EventSlot :=
  { slot with marker := none, message := .simple "", thrown := none,
              context := .empty, stack := [], location := none,
              endOfBatch := false, isVoid := true }

-- ======================================================= what is shown

/-- Whatever the slot carried before, it shows what was written to it. -/
theorem setValues_eq (slot : EventSlot) (v : EventValues) : slot.setValues v = ofValues v := by
  cases hc : v.context <;> cases hp : v.properties <;>
    simp [setValues, ofValues, contextOf, PropertySet.merge, Dict.insertAll_entries, hc, hp]

@[simp] theorem isVoid_ofValues (v : EventValues) : (ofValues v).isVoid = false := rfl

/-- A cleared slot is void, whatever it held. -/
@[simp] theorem isVoid_clear (slot : EventSlot) : slot.clear.isVoid = true := rfl

end EventSlot

end LogPipeline
