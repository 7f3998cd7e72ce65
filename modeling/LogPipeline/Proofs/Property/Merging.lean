/-
What merging configured properties into a context map comes to. The merge
goes through the properties with a map that grows, and what was put in
earlier keeps later properties of the same name out. Seen from the names,
nothing of this order is left: a name leads to what the event carries
for it, or else to the first property of that name (`mergedValue?`,
`get?_mergeProperties`).

An event's map is merged in a copy (`PropertySet.merge`) or in the slot
that the event is written to (`EventSlot.setValues`), and both come to the
same map. Merging again finds every name there (`mergeProperties_covered`).
-/
import LogPipeline.Event

namespace LogPipeline

-- ============================================================ the rule

/-- What a name leads to once properties were merged into a map: what the
map has for it, or else the value of the first property of the name,
resolved if it is substitutable and as it is written if not. -/
def mergedValue? (existing : Option (Dict String)) (properties : List Property)
    (s : Substitutor) (name : String) : Option String :=
  match existing.bind (·.get? name) with
  | some value => some value
  | none => (properties.find? (·.name == name)).map fun p =>
      if p.substitutable then s.resolve p.value else p.value

variable {m : Dict String} {p : Property} {properties : List Property} {s : Substitutor}

-- ====================================================== one by one

/-- One property comes in, or is kept out by its name. -/
theorem mergeProperties_cons (m : Dict String) (p : Property) (rest : List Property)
    (s : Substitutor) :
    mergeProperties m (p :: rest) s
      = mergeProperties (if m.contains p.name then m else m.insert p.name (p.resolved s)) rest s :=
  rfl

theorem Dict.contains_eq_true_iff {name : String} :
    m.contains name = true ↔ ∃ v, m.get? name = some v :=
  Option.isSome_iff_exists

/-- With one property more, a name that was free may lead to it. -/
theorem get?_mergeOne (m : Dict String) (p : Property) (s : Substitutor) (name : String) :
    (if m.contains p.name then m else m.insert p.name (p.resolved s)).get? name
      = (m.get? name).or (if p.name = name then some (p.resolved s) else none) := by
  by_cases hname : p.name = name
  · rw [if_pos hname, ← hname]
    split
    · next hin =>
      obtain ⟨v, hv⟩ := Dict.contains_eq_true_iff.1 hin
      rw [hv, Option.some_or]
    · next hout =>
      have hnone : m.get? p.name = none :=
        Option.not_isSome_iff_eq_none.1 hout
      rw [Dict.get?_insert, if_pos rfl, hnone, Option.none_or]
  · rw [if_neg hname, Option.or_none]
    split
    · rfl
    · rw [Dict.get?_insert, if_neg hname]

/-- What the map holds wins over what is configured, and of the properties
with one name the first wins. -/
theorem get?_mergeProperties (m : Dict String) (properties : List Property) (s : Substitutor)
    (name : String) :
    (mergeProperties m properties s).get? name
      = (m.get? name).or ((properties.find? (·.name == name)).map (·.resolved s)) := by
  induction properties generalizing m with
  | nil => simp [mergeProperties]
  | cons p rest ih =>
      rw [mergeProperties_cons, ih, get?_mergeOne, List.find?_cons]
      by_cases hname : p.name = name
      · rw [if_pos hname, beq_iff_eq.2 hname]
        cases m.get? name <;> rfl
      · rw [if_neg hname, Option.or_none, beq_eq_false_iff_ne.2 hname]

theorem get?_mergeProperties_getD (existing : Option (Dict String)) (properties : List Property)
    (s : Substitutor) (name : String) :
    (mergeProperties (existing.getD .empty) properties s).get? name
      = mergedValue? existing properties s name := by
  have hexisting : (existing.getD .empty).get? name = existing.bind (·.get? name) := by
    cases existing <;> rfl
  rw [get?_mergeProperties, hexisting]
  unfold mergedValue?
  cases existing.bind (·.get? name) <;> rfl

-- ======================================================= once more

/-- Properties whose names are all there add nothing. -/
theorem mergeProperties_covered (h : ∀ p ∈ properties, m.contains p.name = true) :
    mergeProperties m properties s = m := by
  induction properties with
  | nil => rfl
  | cons p rest ih =>
      rw [mergeProperties_cons, if_pos (h p List.mem_cons_self)]
      exact ih fun q hq => h q (List.mem_cons_of_mem _ hq)

/-- Once properties were merged, all their names are there. -/
theorem contains_mergeProperties (hp : p ∈ properties) :
    (mergeProperties m properties s).contains p.name = true := by
  refine Dict.contains_eq_true_iff.2 ?_
  rw [get?_mergeProperties]
  cases m.get? p.name with
  | some v => exact ⟨v, rfl⟩
  | none =>
      -- the first property of the name need not be `p`, but there is one
      have hfound : (properties.find? (·.name == p.name)).isSome = true :=
        List.find?_isSome.2 ⟨p, hp, beq_self_eq_true p.name⟩
      obtain ⟨q, hq⟩ := Option.isSome_iff_exists.1 hfound
      exact ⟨q.resolved s, by rw [hq]; rfl⟩

theorem mergeProperties_again (m : Dict String) (properties : List Property) (s : Substitutor) :
    mergeProperties (mergeProperties m properties s) properties s
      = mergeProperties m properties s :=
  mergeProperties_covered fun _ hp => contains_mergeProperties hp

/-- The merge in the slot, whatever the slot carried before. -/
theorem context_setValues (slot : EventSlot) (v : EventValues) (existing : Option (Dict String))
    (ps : PropertySet) :
    (slot.setValues { v with context := existing, properties := some ps }).context
      = ps.merge existing := by
  rw [EventSlot.setValues_eq]
  rfl

/-- The merged map has, for every name, what the event carries for it, or
else the value of the first property with that name; so it is known by
that. A copy of the event's map is merged to it as well as the map in the
slot that the event is written to, and merging the same properties again
changes nothing, in the copy or in the slot. -/
theorem merge_rule (existing : Option (Dict String)) (properties : List Property)
    (s : Substitutor) (slot : EventSlot) (v : EventValues) :
    let ps : PropertySet := ⟨properties, s⟩
    let merged := mergeProperties (existing.getD .empty) properties s
    (∀ name, merged.get? name = mergedValue? existing properties s name)
      ∧ (∀ m : Dict String, (∀ name, m.get? name = mergedValue? existing properties s name) →
          m = merged)
      ∧ ps.merge existing = merged
      ∧ (slot.setValues { v with context := existing, properties := some ps }).context = merged
      ∧ mergeProperties merged properties s = merged
      ∧ ps.merge (some merged) = merged
      ∧ (slot.setValues { v with context := some merged, properties := some ps }).context
          = merged := by
  intro ps merged
  have hrule : ∀ name, merged.get? name = mergedValue? existing properties s name :=
    get?_mergeProperties_getD existing properties s
  have hagain : mergeProperties merged properties s = merged :=
    mergeProperties_again _ properties s
  refine ⟨hrule, fun m hm => ?_, rfl, context_setValues slot v existing ps, hagain, hagain, ?_⟩
  · exact Dict.eq_of_get? fun name => (hm name).trans (hrule name).symm
  · exact (context_setValues slot v (some merged) ps).trans hagain

end LogPipeline
