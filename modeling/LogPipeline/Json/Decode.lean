/-
From JSON to values. A record is read from an object, whose unknown
members are skipped and whose known ones may not repeat, or from an array
that lists its fields in order. A choice is read from the name of the
variant, or from an object with that name as its only key; a tagged
choice from a record that holds the variant under `type`, or as its first
item.

Values that are read may nest to a fixed depth only; what is skipped may
nest deeper, but all of a tagged record counts as read.
-/
import LogPipeline.Json.Parser
import LogPipeline.Json.Range
import LogPipeline.Dict

namespace LogPipeline

/-- Where a value stands: how many more levels may open around it, and
whether it is part of a tagged record. -/
structure Json.Place where
  levels : Nat
  tagged : Bool

/-- A reader of values of type `α`. -/
abbrev Decoder (α : Type) := Json.Place → Json → Option α

namespace Json

/-- The place of a whole document. -/
def Place.document : Place := ⟨127, false⟩

/-- The place of the parts of a value at `pl`, if there may be any. -/
def Place.inside? (pl : Place) : Option Place :=
  match pl.levels with
  | 0 => none
  | n + 1 => some { pl with levels := n }

-- ============================================================= scalars

def text : Decoder String
  | _, .str s => some s
  | _, _ => none

def boolean : Decoder Bool
  | _, .bool b => some b
  | _, _ => none

/-- A natural number below `2 ^ 64`. -/
def word : Decoder Nat
  | _, .int n => if 0 ≤ n ∧ n < 18446744073709551616 then some n.toNat else none
  | _, _ => none

/-- `null` for a value that is not given. -/
def optional {α : Type} (d : Decoder α) : Decoder (Option α)
  | _, .null => some none
  | pl, v => (d pl v).map some

-- ========================================================== containers

def list {α : Type} (d : Decoder α) : Decoder (List α)
  | pl, .arr vs => do
    let inner ← pl.inside?
    vs.mapM (d inner)
  | _, _ => none

/-- A dictionary; of members with one key the last counts. -/
def dict {α : Type} (d : Decoder α) : Decoder (Dict α)
  | pl, .obj ms => do
    let inner ← pl.inside?
    return Dict.ofList (← ms.mapM fun m => (d inner m.2).map (m.1, ·))
  | _, _ => none

/-- The member called `name`: `none` if it repeats, and otherwise its
value if it is there. -/
def member? (ms : List (String × Json)) (name : String) : Option (Option Json) :=
  match ms.filter (·.1 == name) with
  | [] => some none
  | [m] => some (some m.2)
  | _ => none

/-- The values given for the fields `names`, and the place they stand at. -/
def fields (names : List String) : Decoder (Place × List (Option Json))
  | pl, .obj ms => do
    let inner ← pl.inside?
    return (inner, ← names.mapM (member? ms))
  | pl, .arr vs => do
    let inner ← pl.inside?
    if names.length < vs.length then none
    else return (inner, vs.map some ++ List.replicate (names.length - vs.length) none)
  | _, _ => none

/-- A field that has to be given. -/
def required {α : Type} (d : Decoder α) (pl : Place) (v : Option Json) : Option α :=
  v.bind (d pl)

/-- A field that may be left out. -/
def withDefault {α : Type} (dflt : α) (d : Decoder α) (pl : Place) : Option Json → Option α
  | none => some dflt
  | some v => d pl v

-- ============================================================= choices

/-- The name of a variant and the value attached to it. -/
def variant : Decoder (String × Option (Place × Json))
  | _, .str s => some (s, none)
  | pl, .obj [(k, v)] => do
    let inner ← pl.inside?
    return (k, some (inner, v))
  | _, _ => none

/-- Nothing is attached: no value at all, or one that stands for nothing. -/
def isBare : Option (Place × Json) → Bool
  | none => true
  | some (_, .null) => true
  | some (pl, .obj []) => pl.tagged
  | some _ => false

/-- A choice between bare names. -/
def oneOf {α : Type} (names : List (String × α)) : Decoder α := fun pl v => do
  let (name, attached) ← variant pl v
  if isBare attached then (names.find? (·.1 == name)).map (·.2) else none

mutual

/-- All of the value can be read: no deeper than `levels`, with no broken
text and no number out of range. -/
def isReadable (levels : Nat) : Json → Bool
  | null | bool _ | str _ => true
  | int n => inRange n.natAbs 0
  | float m e => inRange m.natAbs e
  | arr vs => 0 < levels && areReadable (levels - 1) vs
  | obj ms => 0 < levels && membersReadable (levels - 1) ms
  | unreadable => false

def areReadable (levels : Nat) : List Json → Bool
  | [] => true
  | v :: vs => isReadable levels v && areReadable levels vs

def membersReadable (levels : Nat) : List (String × Json) → Bool
  | [] => true
  | (_, v) :: ms => isReadable levels v && membersReadable levels ms

end

/-- The tag of a tagged record, and the record without it. -/
def untag? : Json → Option (Json × Json)
  | .obj ms => do
    let tag ← ← member? ms "type"
    return (tag, .obj (ms.filter (·.1 != "type")))
  | .arr (tag :: vs) => some (tag, .arr vs)
  | _ => none

/-- The variant that a tag chooses by its name. Inside a tagged record a
tag may also be the number of the variant. -/
def chosen? {α : Type} (variants : List (String × α)) (pl : Place) : Json → Option α
  | .str name => variants.lookup name
  | .int n => if pl.tagged ∧ 0 ≤ n then (variants[n.toNat]?).map (·.2) else none
  | _ => none

/-- A tagged record: the tag chooses how the rest is read. -/
def tagged {α : Type} (variants : List (String × Decoder α)) : Decoder α := fun pl v => do
  let (tag, rest) ← untag? v
  let decoder ← chosen? variants pl tag
  if isReadable pl.levels rest then decoder { pl with tagged := true } rest else none

/-- Read a document. -/
def decode? {α : Type} (d : Decoder α) (text : String) : Option α :=
  (parse? text).bind (d Place.document)

end Json

end LogPipeline
