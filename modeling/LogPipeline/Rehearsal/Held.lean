/-
Things that a rehearsal holds by name. Under one name one thing is held.
-/

namespace LogPipeline.Rehearsal

abbrev Held (α : Type) := List (String × α)

namespace Held

variable {α : Type}

def without (h : Held α) (name : String) : Held α := h.filter (·.1 != name)

/-- Hold a thing in place of what was held under its name. -/
def put (h : Held α) (name : String) (a : α) : Held α := (name, a) :: h.without name

def has (h : Held α) (name : String) : Bool := (h.lookup name).isSome

/-- The names, sorted, of the things held that are like this. -/
def namesOf (p : α → Bool) (h : Held α) : List String :=
  ((h.filter (p ·.2)).map (·.1)).mergeSort (· ≤ ·)

end Held

end LogPipeline.Rehearsal
