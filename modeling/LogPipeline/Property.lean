/-
Configured properties and how they join an event's context map. A value
may refer to variables as `${name}`, to the environment as
`${env:NAME}`, and may give a fallback after `:-`. What an event
carries always wins over what is configured.
-/
import LogPipeline.Dict
import LogPipeline.Json.Decode

namespace LogPipeline

-- ======================================================== substitution

/-- Cut `cs` at the first `mark`: what stands before it and after it. -/
def splitAt? (mark : Char → Bool) : List Char → Option (List Char × List Char)
  | [] => none
  | c :: rest =>
    if mark c then some ([], rest)
    else (splitAt? mark rest).map fun (a, b) => (c :: a, b)

/-- Split a reference at its first `:-` into key and fallback. -/
def splitFallback : List Char → List Char × Option (List Char)
  | ':' :: '-' :: rest => ([], some rest)
  | c :: rest =>
    let (key, fallback) := splitFallback rest
    (c :: key, fallback)
  | [] => ([], none)

/-- What follows a reference is shorter than the text it stands in. -/
theorem length_lt_of_splitAt? {mark : Char → Bool} {cs a b : List Char}
    (h : splitAt? mark cs = some (a, b)) : b.length < cs.length := by
  induction cs generalizing a b with
  | nil => simp [splitAt?] at h
  | cons c rest ih =>
    unfold splitAt? at h
    split at h
    · simp only [Option.some.injEq, Prod.mk.injEq] at h
      simp [← h.2]
    · simp only [Option.map_eq_some_iff, Prod.exists, Prod.mk.injEq] at h
      obtain ⟨a', b', h', -, rfl⟩ := h
      have := ih h'
      simp; omega

/-- Copy `cs`, replacing every closed reference by what `expand` makes of
the text between its braces. An open reference is copied to the end. -/
def replaceRefs (expand : List Char → List Char) (cs : List Char) : List Char :=
  match cs with
  | '$' :: '{' :: rest =>
    match h : splitAt? (· == '}') rest with
    | some (inner, after) =>
      have : after.length < (rest.length + 1) + 1 := by
        have := length_lt_of_splitAt? h; omega
      expand inner ++ replaceRefs expand after
    | none => '$' :: '{' :: rest
  | c :: rest => c :: replaceRefs expand rest
  | [] => []
termination_by cs.length

/-- The text that the environment holds for a name. The environment is a
list of lines `name=text`, and a name is sought as the start of a line
before an equals sign, so it may reach into the text. -/
def environmentText? (env : Dict String) (name : List Char) : Option (List Char) :=
  match splitAt? (· == '=') name with
  | none => (env.get? (String.ofList name)).map String.toList
  | some (name, start) => do
    let text ← env.get? (String.ofList name)
    (start ++ ['=']).isPrefixOf? text.toList

/-- Where references find their texts. -/
structure Variables where
  vars : Dict String
  env : Dict String

namespace Variables

/-- The text a key stands for; keys that start with `env:` name the environment. -/
def lookup (v : Variables) (key : List Char) : Option (List Char) :=
  match key with
  | 'e' :: 'n' :: 'v' :: ':' :: name => environmentText? v.env name
  | key => (v.vars.get? (String.ofList key)).map String.toList

/-- What a reference becomes, given how to expand the text found: that
text, the fallback as it is written, or the reference itself. -/
def expandRef (v : Variables) (expand : List Char → List Char) (inner : List Char) : List Char :=
  let (key, fallback) := splitFallback inner
  match v.lookup key with
  | some found => expand found
  | none =>
    match fallback with
    | some text => text
    | none => '$' :: '{' :: (inner ++ ['}'])

/-- Expand the references of `cs`, and those of the texts found, `depth` levels deep. -/
def expand (v : Variables) : (depth : Nat) → List Char → List Char
  | 0, cs => cs
  | depth + 1, cs => replaceRefs (v.expandRef (v.expand depth)) cs

end Variables

/-- How deep references in found texts are followed. -/
def maxSubstitutionDepth : Nat := 8

/-- How a property's value becomes the value that is merged. -/
inductive Substitutor where
  | verbatim
  | expanding (v : Variables)
  /-- A substitutor of the application's own. -/
  | custom (resolve : String → String)

namespace Substitutor

def resolve : Substitutor → String → String
  | verbatim, s => s
  | expanding v, s => String.ofList (v.expand maxSubstitutionDepth s.toList)
  | custom f, s => f s

end Substitutor

-- ========================================================== properties

/-- A configured pair; only a substitutable one has its value resolved. -/
structure Property where
  name : String
  value : String
  substitutable : Bool
  deriving DecidableEq, Inhabited

namespace Property

/-- The value that the property contributes. -/
def resolved (s : Substitutor) (p : Property) : String :=
  if p.substitutable then s.resolve p.value else p.value

def decoder : Decoder Property := fun pl v => do
  let (pl, fs) ← Json.fields ["name", "value", "substitutable"] pl v
  match fs with
  | [name, value, substitutable] =>
    return ⟨← Json.required Json.text pl name, ← Json.required Json.text pl value,
      ← Json.withDefault false Json.boolean pl substitutable⟩
  | _ => none

def toJson (p : Property) : Json :=
  .obj [("name", .str p.name), ("value", .str p.value), ("substitutable", .bool p.substitutable)]

end Property

/-- Add to `existing` every property whose name it does not hold yet; of
properties with one name the first is added. -/
def mergeProperties (existing : Dict String) (properties : List Property) (s : Substitutor) :
    Dict String :=
  properties.foldl
    (fun m p => if m.contains p.name then m else m.insert p.name (p.resolved s)) existing

/-- Properties with the substitutor that resolves them. -/
structure PropertySet where
  properties : List Property
  substitutor : Substitutor

namespace PropertySet

def isEmpty (s : PropertySet) : Bool := s.properties.isEmpty

/-- The context map with the properties merged in; no map counts as an empty one. -/
def merge (s : PropertySet) (existing : Option (Dict String)) : Dict String :=
  mergeProperties (existing.getD .empty) s.properties s.substitutor

end PropertySet

/-- The text holds the start of a reference. -/
def hasReference : List Char → Bool
  | '$' :: '{' :: _ => true
  | _ :: rest => hasReference rest
  | [] => false

end LogPipeline
