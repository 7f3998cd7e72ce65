/-
Producers that wait for a cell, as the record of a ring knows them: each
has a sequence, and no answer yet (`Fates.Awaited`). Where the events are
told that the sequences were taken for, whoever waits has its event in
hand, and what is published under a sequence is its event
(`Fates.Filled`). Both hold on when one more takes a sequence, and when
one is told something (`draw`, `answered`).
-/
import LogPipeline.Proofs.Ring.Traffic
import Mathlib.Data.List.Perm.Basic

namespace LogPipeline

-- ========================================================== who waits

/-- Those who wait have a sequence each, and have had no answer. -/
structure Fates.Awaited (fates : Fates) (ws : List Ring.Waiter) : Prop where
  waiting : ∀ w ∈ ws, fates[w.sequence]? = some .reserved
  apart : (ws.map (·.sequence)).Nodup

namespace Fates.Awaited

variable {fates : Fates} {ws : List Ring.Waiter} {w : Ring.Waiter}

theorem perm (h : fates.Awaited ws) {ws' : List Ring.Waiter} (hp : ws'.Perm ws) :
    fates.Awaited ws' where
  waiting w hw := h.waiting w (hp.mem_iff.1 hw)
  apart := (hp.map _).nodup_iff.2 h.apart

/-- One more caller takes a sequence. -/
theorem draw (h : fates.Awaited ws) (v : EventValues) :
    Fates.Awaited (fates ++ [.reserved]) (⟨fates.length, v⟩ :: ws) where
  waiting := by
    intro w hw
    rcases List.mem_cons.1 hw with rfl | hw
    · exact List.getElem?_concat_length
    · have hw' := h.waiting w hw
      rw [List.getElem?_append_left (Fates.lt_of_getElem? hw')]
      exact hw'
  apart := by
    refine List.nodup_cons.2 ⟨fun hmem => ?_, h.apart⟩
    obtain ⟨w, hw, heq⟩ := List.mem_map.1 hmem
    have hlt := Fates.lt_of_getElem? (h.waiting w hw)
    have heq' : w.sequence = fates.length := heq
    omega

/-- One caller's answer is no concern of the others. -/
theorem answered (h : fates.Awaited (w :: ws)) (f : Fate) :
    Fates.Awaited (fates.set w.sequence f) ws where
  waiting := by
    intro w' hw'
    have hne : w.sequence ≠ w'.sequence := fun heq =>
      (List.nodup_cons.1 h.apart).1 (List.mem_map.2 ⟨w', hw', heq.symm⟩)
    rw [Fates.getElem?_set_of_ne hne]
    exact h.waiting w' (List.mem_cons_of_mem _ hw')
  apart := (List.nodup_cons.1 h.apart).2

/-- Where all is resolved nobody waits. -/
theorem eq_nil (h : fates.Awaited ws) (hres : ∀ f ∈ fates, f.isResolved = true) : ws = [] := by
  refine List.eq_nil_iff_forall_not_mem.2 fun w hw => ?_
  cases hres .reserved (List.mem_of_getElem? (h.waiting w hw))

end Fates.Awaited

-- ======================================================= what was taken

/-- The events that sequences were taken for, one for each. What is
published under a sequence is its event, and whoever waits has it in hand. -/
structure Fates.Filled (fates : Fates) (given : List EventValues) (ws : List Ring.Waiter) : Prop
    extends fates.Awaited ws where
  length_eq : given.length = fates.length
  given_eq : ∀ (s : Nat) (v : EventValues), fates[s]? = some (.published v) → given[s]? = some v
  in_hand : ∀ w ∈ ws, given[w.sequence]? = some w.values

namespace Fates.Filled

variable {fates : Fates} {given : List EventValues} {ws : List Ring.Waiter} {w : Ring.Waiter}

theorem perm (h : fates.Filled given ws) {ws' : List Ring.Waiter} (hp : ws'.Perm ws) :
    fates.Filled given ws' :=
  { h with
    toAwaited := h.toAwaited.perm hp
    in_hand := fun w hw => h.in_hand w (hp.mem_iff.1 hw) }

/-- One more caller takes a sequence, for its event. -/
theorem draw (h : fates.Filled given ws) (v : EventValues) :
    Fates.Filled (fates ++ [.reserved]) (given ++ [v]) (⟨fates.length, v⟩ :: ws) where
  toAwaited := h.toAwaited.draw v
  length_eq := by
    rw [List.length_append, List.length_append, h.length_eq]
    rfl
  given_eq := by
    intro s v' hs
    rcases Nat.lt_or_ge s fates.length with hlt | hge
    · rw [List.getElem?_append_left hlt] at hs
      rw [List.getElem?_append_left (h.length_eq ▸ hlt)]
      exact h.given_eq s v' hs
    · rw [List.getElem?_append_right hge] at hs
      cases List.mem_singleton.1 (List.mem_of_getElem? hs)
  in_hand := by
    intro w hw
    rcases List.mem_cons.1 hw with rfl | hw
    · show (given ++ [v])[fates.length]? = some v
      rw [← h.length_eq]
      exact List.getElem?_concat_length
    · rw [List.getElem?_append_left (h.length_eq ▸ Fates.lt_of_getElem? (h.waiting w hw))]
      exact h.in_hand w hw

/-- One caller is told what has come of its sequence. -/
theorem answered (h : fates.Filled given (w :: ws)) {answer : Option (Except LogError Nat)}
    {f : Fate} (htold : Traffic.Told w answer f) :
    Fates.Filled (fates.set w.sequence f) given ws where
  toAwaited := h.toAwaited.answered f
  length_eq := by
    rw [List.length_set]
    exact h.length_eq
  given_eq := by
    intro s v hs
    have hw := h.waiting w List.mem_cons_self
    by_cases heq : w.sequence = s
    · rw [← heq, Fates.getElem?_set_self hw] at hs
      rw [Option.some.inj hs] at htold
      rw [← heq, h.in_hand w List.mem_cons_self, htold.values_eq]
    · rw [Fates.getElem?_set_of_ne heq] at hs
      exact h.given_eq s v hs
  in_hand w' hw' := h.in_hand w' (List.mem_cons_of_mem _ hw')

/-- What a caller is told may be that it has to wait. -/
theorem heard (h : fates.Filled given (w :: ws)) {answer : Option (Except LogError Nat)} {f : Fate}
    (htold : Traffic.Told w answer f) :
    Fates.Filled (fates.set w.sequence f) given (if answer.isSome then ws else w :: ws) := by
  cases answer with
  | some _ => exact h.answered htold
  | none =>
      rw [show f = .reserved from htold, Fates.set_self (h.waiting w List.mem_cons_self)]
      exact h

end Fates.Filled

end LogPipeline
