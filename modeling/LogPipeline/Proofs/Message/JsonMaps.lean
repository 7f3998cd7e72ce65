/-
A map message is its JSON text. The object is put together by hand from
quoted keys and values, a comma and a blank between two pairs; it is one
of the spellings of the object with these members (`spells_format`), so
the reader takes it back whatever the strings hold. Nothing in it breaks
the line (`unbroken_format_json`).

A message is made by edits, each of which puts a key or removes one. Under
a key the message has what the last edit of the key left there
(`get?_edited`), and so has the object that is read.
-/
import LogPipeline.Proofs.Formatter.Records
import LogPipeline.Proofs.Json.Fields
import Mathlib.Data.List.Induction

namespace LogPipeline

theorem Dict.lookup_map {α β : Type} (f : α → β) (key : String) (l : List (String × α)) :
    lookup key (l.map fun e => (e.1, f e.2)) = (lookup key l).map f := by
  induction l with
  | nil => rfl
  | cons e l ih =>
    obtain ⟨k, v⟩ := e
    by_cases hk : k = key
    · simp [lookup, hk]
    · simp [lookup, hk, ih]

namespace MapMessage

-- ============================================================== edits

/-- A change of a map message. -/
inductive Edit where
  | put (key value : String)
  | remove (key : String)
  deriving DecidableEq

def Edit.key : Edit → String
  | put key _ | remove key => key

/-- What the edit leaves under its key. -/
def Edit.value? : Edit → Option String
  | put _ value => some value
  | remove _ => none

def edit (m : MapMessage) : Edit → MapMessage
  | .put key value => m.insert key value
  | .remove key => m.erase key

/-- An empty message after the edits. -/
def edited (edits : List Edit) : MapMessage := edits.foldl edit .empty

/-- What the last edit of a key left under it. -/
def left? (edits : List Edit) (key : String) : Option String :=
  (edits.reverse.find? (·.key == key)).bind Edit.value?

/-- A map answers for the key that was edited with what the edit left
there. -/
theorem get?_edit (m : MapMessage) (e : Edit) (key : String) :
    (m.edit e).get? key = if e.key = key then e.value? else m.get? key := by
  cases e with
  | put k value => exact Dict.get?_insert m k key value
  | remove k => exact Dict.get?_erase m k key

/-- One more edit decides for its key and leaves the others as they were. -/
theorem left?_concat (edits : List Edit) (e : Edit) (key : String) :
    left? (edits ++ [e]) key = if e.key = key then e.value? else left? edits key := by
  unfold left?
  rw [List.reverse_concat, List.find?_cons]
  by_cases hkey : e.key = key
  · rw [if_pos hkey, beq_iff_eq.2 hkey]
    rfl
  · rw [if_neg hkey, beq_eq_false_iff_ne.2 hkey]

/-- After edits a key has what the last of them on it left. -/
theorem get?_edited (edits : List Edit) (key : String) :
    (edited edits).get? key = left? edits key := by
  induction edits using List.reverseRecOn with
  | nil => rfl
  | append_singleton edits e ih =>
    have hlast : edited (edits ++ [e]) = (edited edits).edit e := List.foldl_concat ..
    rw [hlast, get?_edit, left?_concat, ih]

-- ============================================================ the text

/-- The members of the object that stands for the message. -/
def members (m : MapMessage) : List (String × Json) := m.entries.map fun e => (e.1, .str e.2)

/-- One or more pairs, and the brace that closes them. -/
theorem spells_pairs (e : String × String) (es : List (String × String)) :
    Json.SpellsMembers ((e :: es).map fun e => (e.1, .str e.2))
      ([',', ' '].intercalate ((e :: es).map fun e => (jsonPair e).toList) ++ ['}']) := by
  have hpair (e : String × String) :
      (jsonPair e).toList = Json.quote e.1 ++ ':' :: Json.quote e.2 := String.toList_ofList
  induction es generalizing e with
  | nil =>
    have hlast := @Json.SpellsMembers.last e.1 (.str e.2) [] [] (Json.quote e.2) [] Json.blank_nil
      Json.blank_nil (.str e.2) Json.blank_nil
    simpa [hpair] using hlast
  | cons e' es ih =>
    have hmore := @Json.SpellsMembers.more e.1 (.str e.2) _ [] [] (Json.quote e.2) [] [' '] _
      Json.blank_nil Json.blank_nil (.str e.2) Json.blank_nil Json.blank_space (ih e')
    simpa [hpair, List.intercalate_cons_cons] using hmore

theorem toList_format_json (m : MapMessage) :
    (m.format .json).toList
      = '{' :: ([',', ' '].intercalate (m.entries.map fun e => (jsonPair e).toList)
        ++ ['}']) := by
  simp only [format, Dict.braced, String.toList_append, String.toList_intercalate,
    String.toList_ofList, List.map_map]
  rfl

/-- The text is a spelling of the object. -/
theorem spells_format (m : MapMessage) :
    Json.Spells (.obj m.members) (m.format .json).toList := by
  rw [toList_format_json]
  unfold members
  cases m.entries with
  | nil => exact .emptyObj Json.blank_nil
  | cons e es => exact @Json.Spells.obj _ [] _ Json.blank_nil (spells_pairs e es)

/-- The text of a map is read as an object of its members. -/
theorem parse?_format_json (m : MapMessage) :
    Json.parse? (m.format .json) = some (.obj m.members) := by
  have hread := Json.parseChars?_of_spells (spells_format m) Json.blank_nil Json.blank_nil
  rwa [List.nil_append, List.append_nil] at hread

/-- And that is decoded as the map itself. -/
theorem decode?_format_json (m : MapMessage) :
    Json.decode? (Json.dict Json.text) (m.format .json) = some m := by
  unfold Json.decode?
  rw [parse?_format_json, Option.bind_some]
  exact Json.dict_map (by decide) fun e _ => Json.text_str e.2

/-- A map is written on one line, whatever its entries. -/
theorem unbroken_format_json (m : MapMessage) : Unbroken (m.format .json).toList := by
  rw [toList_format_json, unbroken_cons_iff, unbroken_append_iff]
  refine ⟨by decide, unbroken_intercalate (by decide) fun p hp => ?_, by decide⟩
  obtain ⟨e, -, rfl⟩ := List.mem_map.1 hp
  unfold jsonPair
  rw [String.toList_ofList, unbroken_append_iff]
  exact ⟨Json.unbroken_quote e.1, Json.unbroken_mark (by decide) (Json.unbroken_quote e.2)⟩

/-- No name is written twice. -/
theorem nodup_members (m : MapMessage) : (m.members.map Prod.fst).Nodup := by
  have hkeys : m.members.map Prod.fst = m.entries.map Prod.fst := by
    unfold members
    rw [List.map_map]
    rfl
  rw [hkeys, List.Nodup, List.pairwise_map]
  exact m.sorted.imp fun hlt => String.ne_of_lt hlt

/-- The JSON text of a map message is one line. It is read as an object
with the message's pairs as its members, and as the message itself. After
any edits the object has each key once, and under a key what the last edit
of the key left there. Messages with the same text are the same. -/
theorem json_text_decodes :
    (∀ m : MapMessage, Unbroken (m.format .json).toList
      ∧ Json.parse? (m.format .json) = some (.obj (m.entries.map fun e => (e.1, .str e.2)))
      ∧ Json.decode? (Json.dict Json.text) (m.format .json) = some m)
    ∧ (∀ edits : List Edit, ∃ ms, Json.parse? ((edited edits).format .json) = some (.obj ms)
      ∧ (ms.map Prod.fst).Nodup
      ∧ ∀ key, Dict.lookup key ms = (left? edits key).map .str)
    ∧ ∀ m m' : MapMessage, m.format .json = m'.format .json ↔ m = m' := by
  refine ⟨fun m => ?_, fun edits => ?_, fun m m' => ⟨fun htext => ?_, fun h => h ▸ rfl⟩⟩
  · exact ⟨unbroken_format_json m, parse?_format_json m, decode?_format_json m⟩
  · refine ⟨(edited edits).members, parse?_format_json _, nodup_members _, fun key => ?_⟩
    rw [← get?_edited]
    exact Dict.lookup_map Json.str key (edited edits).entries
  · have hread : some m = some m' := by
      rw [← decode?_format_json m, htext, decode?_format_json m']
    exact Option.some.inj hread

/-- What looks like the end of a pair stays inside its string. -/
example : (edited [.put "b" "x", .put "a" "\", \"b\":\"\n", .remove "b"]).format .json
    = String.ofList ['{'] ++ "\"a\":\"\\\", \\\"b\\\":\\\"\\n\"" ++ String.ofList ['}'] := by
  decide +kernel

end MapMessage

end LogPipeline
