/-
Markers: named tags of events, each with any number of parents.
-/

namespace LogPipeline

/-- A named tag with its parents. -/
inductive Marker where
  | mk (name : String) (parents : List Marker)

namespace Marker

def name : Marker → String
  | mk name _ => name

def parents : Marker → List Marker
  | mk _ parents => parents

/-- The marker or one of its ancestors carries `key`. -/
def isInstanceOf (key : String) : Marker → Bool
  | mk name parents => name == key || parents.attach.any fun ⟨p, _⟩ => p.isInstanceOf key

/-- The name, followed in brackets by the parents if there are any. -/
def display : Marker → String
  | mk name [] => name
  | mk name parents =>
    name ++ "[ " ++ ", ".intercalate (parents.attach.map fun ⟨p, _⟩ => p.display) ++ " ]"

mutual

/-- Two markers are equal when their names and parents are. -/
def beq : Marker → Marker → Bool
  | mk n ps, mk n' ps' => n == n' && beqAll ps ps'

def beqAll : List Marker → List Marker → Bool
  | [], [] => true
  | p :: ps, p' :: ps' => beq p p' && beqAll ps ps'
  | _, _ => false

end

instance : BEq Marker := ⟨beq⟩
instance : Inhabited Marker := ⟨mk "" []⟩

mutual

/-- Markers that compare as equal are the same, down to their last parent. -/
theorem eq_of_beq' : ∀ {a b : Marker}, beq a b = true → a = b
  | mk n ps, mk n' ps', h => by
    simp only [beq, Bool.and_eq_true, beq_iff_eq] at h
    rw [h.1, eq_of_beqAll h.2]

theorem eq_of_beqAll : ∀ {a b : List Marker}, beqAll a b = true → a = b
  | [], [], _ => rfl
  | p :: ps, p' :: ps', h => by
    simp only [beqAll, Bool.and_eq_true] at h
    rw [eq_of_beq' h.1, eq_of_beqAll h.2]
  | [], _ :: _, h => by simp [beqAll] at h
  | _ :: _, [], h => by simp [beqAll] at h

end

mutual

/-- A marker compares as equal to itself. -/
theorem beq_self : ∀ a : Marker, beq a a = true
  | mk n ps => by simp [beq, beqAll_self ps]

/-- So do the parents of a marker. -/
theorem beqAll_self : ∀ a : List Marker, beqAll a a = true
  | [] => rfl
  | p :: ps => by simp [beqAll, beq_self p, beqAll_self ps]

end

instance : LawfulBEq Marker where
  eq_of_beq := eq_of_beq'
  rfl := beq_self _

instance : DecidableEq Marker := fun a b =>
  if h : beq a b = true then isTrue (eq_of_beq' h)
  else isFalse fun heq => h (heq ▸ beq_self a)

end Marker

end LogPipeline
