/-
All that was published on a ring, in the order of the sequences. It is
what the record lists as events, without their numbers
(`map_eventsBelow_of_mute`); it grows by one event with each sequence that
is published under (`length_published_set`).
-/
import LogPipeline.Proofs.Ring.Tracks

namespace LogPipeline

/-- What was published under the sequence. -/
def Fate.values? : Fate → Option EventValues
  | published v => some v
  | _ => none

namespace Fates

/-- All that was published, in the order of the sequences. -/
def published (fates : Fates) : List EventValues := fates.filterMap Fate.values?

theorem map_published (fates : Fates) :
    fates.published.map EventSlot.ofValues = fates.filterMap Fate.event? := by
  unfold published
  rw [List.map_filterMap]
  exact congrArg (List.filterMap · fates) (funext fun f => by cases f <;> rfl)

theorem map_eventsBelow (fates : Fates) (n : Nat) :
    (fates.eventsBelow n).map Prod.snd = (fates.take n).filterMap Fate.event? := by
  induction n with
  | zero => rfl
  | succ n ih =>
      rw [eventsBelow_succ, List.map_append, ih, List.take_add_one, List.filterMap_append]
      unfold eventAt
      cases fates[n]? with
      | none => rfl
      | some f => cases hf : f.event? <;> simp [hf]

/-- Where no event came later, those below are all. -/
theorem map_eventsBelow_of_mute {fates : Fates} {n : Nat}
    (h : ∀ s f, n ≤ s → fates[s]? = some f → f.isMute = true) :
    (fates.eventsBelow n).map Prod.snd = fates.published.map EventSlot.ofValues := by
  have hlater : (fates.drop n).filterMap Fate.event? = [] := by
    apply List.filterMap_eq_nil_iff.2
    intro f hf
    obtain ⟨i, hi⟩ := List.mem_iff_getElem?.1 hf
    rw [List.getElem?_drop] at hi
    have hmute := h (n + i) f (Nat.le_add_right n i) hi
    cases f <;> first | rfl | cases hmute
  rw [map_published, map_eventsBelow, ← List.append_nil (List.filterMap _ (fates.take n)),
    ← hlater, ← List.filterMap_append, List.take_append_drop]

/-- What is published grows by what is published under one sequence. -/
theorem length_published_set {fates : Fates} {s : Nat} {f : Fate} (hs : fates[s]? = some f)
    (hf : f.values? = none) (g : Fate) :
    (published (fates.set s g)).length
      = fates.published.length + g.values?.toList.length := by
  have hcons : ∀ (a : Fate) (rest : Fates),
      (published (a :: rest)).length = rest.published.length + a.values?.toList.length := by
    intro a rest
    unfold published
    rw [List.filterMap_cons]
    cases a.values? <;> rfl
  induction fates generalizing s with
  | nil => cases hs
  | cons a rest ih =>
      cases s with
      | zero =>
          have ha : a = f := Option.some.inj hs
          rw [List.set_cons_zero, hcons, hcons, ha, hf]
          rfl
      | succ s =>
          have hs' : rest[s]? = some f := hs
          rw [List.set_cons_succ, hcons, hcons, ih hs']
          omega

/-- What was published is part of what was given. -/
theorem published_sublist {fates : Fates} {given : List EventValues}
    (hlength : given.length = fates.length)
    (hgiven : ∀ (s : Nat) (v : EventValues), fates[s]? = some (.published v) → given[s]? = some v) :
    fates.published.Sublist given := by
  induction fates generalizing given with
  | nil => exact List.nil_sublist _
  | cons f rest ih =>
      cases given with
      | nil => cases hlength
      | cons v others =>
          have hrest : Fates.published rest |>.Sublist others :=
            ih (Nat.succ.inj hlength) fun s v hs => hgiven (s + 1) v hs
          cases hf : f.values? with
          | none =>
              have heq : published (f :: rest) = Fates.published rest := by
                unfold published
                rw [List.filterMap_cons, hf]
              rw [heq]
              exact hrest.cons v
          | some v' =>
              have heq : published (f :: rest) = v' :: Fates.published rest := by
                unfold published
                rw [List.filterMap_cons, hf]
              have hpublished : f = .published v' := by
                cases f <;> cases hf
                rfl
              have hv : v = v' := Option.some.inj (hgiven 0 v' (by rw [hpublished]; rfl))
              rw [heq, hv]
              exact hrest.cons_cons v'

end Fates

end LogPipeline
