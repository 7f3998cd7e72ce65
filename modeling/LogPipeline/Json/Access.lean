/-
Looking into values whose shape nobody has checked. What is missing,
`null` or of another type is not given, and a default stands in for it.
-/
import LogPipeline.Dict
import LogPipeline.Json.Basic

namespace LogPipeline.Json

/-- The first member of this key; `null` if there is none. -/
def value (v : Json) (key : String) : Json :=
  match v with
  | .obj ms => ((ms.find? (·.1 == key)).map (·.2)).getD .null
  | _ => .null

/-- What is found inside a value is smaller. -/
theorem sizeOf_value (v : Json) (key : String) : sizeOf (v.value key) ≤ sizeOf v := by
  cases v with
  | obj ms =>
    simp only [value]
    cases h : ms.find? (·.1 == key) with
    | none => simp
    | some m =>
      have := List.sizeOf_lt_of_mem (List.mem_of_find?_eq_some h)
      cases m
      simp at this ⊢
      omega
  | _ => simp [value] <;> omega

def asText? : Json → Option String
  | .str s => some s
  | _ => none

/-- What an object maps its keys to, as far as that is text. -/
def asMapping? : Json → Option (Dict String)
  | .obj ms => some (Dict.ofList (ms.filterMap fun m => m.2.asText?.map (m.1, ·)))
  | _ => none

def isGiven (v : Json) (key : String) : Bool :=
  match v.value key with
  | .null => false
  | _ => true

def text? (v : Json) (key : String) : Option String := (v.value key).asText?

def textOr (dflt : String) (v : Json) (key : String) : String := (v.text? key).getD dflt

def integer? (v : Json) (key : String) : Option Int :=
  match v.value key with
  | .int n => some n
  | _ => none

def natural? (v : Json) (key : String) : Option Nat := (v.integer? key).map Int.toNat

def naturalOr (dflt : Nat) (v : Json) (key : String) : Nat := (v.natural? key).getD dflt

def flag? (v : Json) (key : String) : Option Bool :=
  match v.value key with
  | .bool b => some b
  | _ => none

def flagOr (dflt : Bool) (v : Json) (key : String) : Bool := (v.flag? key).getD dflt

def items (v : Json) (key : String) : List Json :=
  match v.value key with
  | .arr vs => vs
  | _ => []

theorem sizeOf_lt_of_mem_items {v x : Json} {key : String} (h : x ∈ v.items key) :
    sizeOf x < sizeOf v := by
  have := sizeOf_value v key
  unfold items at h
  split at h
  · next vs heq =>
    have := List.sizeOf_lt_of_mem h
    simp [heq] at *
    omega
  · simp at h

def strings (v : Json) (key : String) : List String := (v.items key).filterMap asText?

def mapping (v : Json) (key : String) : Dict String := (v.value key).asMapping?.getD .empty

end LogPipeline.Json
