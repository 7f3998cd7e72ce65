/-
The record of a ring's sequences. A ring keeps a cell or two for each
sequence and forgets everything once a cell is used again; the record
here keeps what became of every sequence ever taken, by number, and
forgets nothing. All that is to be said of delivery is said of the
record; `Ring.Tracks` ties the ring's cursors and cells to it.

# The invariant

Write `c` for `consumed` and `n` for the capacity. Only sequences in the
window `[c, c + n)` own a cell, no two of them the same one, so what a
cell shows is decided by the one sequence of the window that lives in it:

- every sequence before `c` is resolved (`released`), so whoever still
  holds a cell holds one of the window (`window`);
- a stamp tells the truth: a cell says that a sequence is resolved only
  if it is (`sound`), and says so of every resolved one from `c` on
  (`stamped`), which is where earlier generations are told apart;
- from `c` on, the slot of a published sequence shows the published
  event, and that of a dropped one is void (`shown`).

Resolving overwrites one cell, and `index_inj` says that no other
sequence of the window lives there. `tryNext` only moves `c` over
dropped sequences. These two facts carry every operation below.
-/
import LogPipeline.Ring.Basic

namespace LogPipeline

-- ============================================================== fates

/-- What has become of a sequence since it was taken. -/
inductive Fate where
  /-- Its producer has not been granted the cell yet. -/
  | reserved
  /-- Its producer holds the cell. -/
  | granted
  /-- Its producer was told to stop and let go of it, unresolved. -/
  | forsaken
  /-- An event was published under it. -/
  | published (v : EventValues)
  /-- Its producer gave it up without an event. -/
  | dropped

namespace Fate

def isResolved : Fate → Bool
  | published _ | dropped => true
  | _ => false

def isDropped : Fate → Bool
  | dropped => true
  | _ => false

/-- The sequence carries no event, and its producer holds no cell to put
one into. -/
def isMute : Fate → Bool
  | granted | published _ => false
  | _ => true

/-- The cell of the sequence was granted to its producer. -/
def ownsCell : Fate → Bool
  | granted | published _ | dropped => true
  | _ => false

/-- The event that the sequence carries. -/
def event? : Fate → Option EventSlot
  | published v => some (.ofValues v)
  | _ => none

/-- The slot shows what it should for this fate, the end of a batch apart. -/
def Shows : Fate → EventSlot → Prop
  | published v, slot => { slot with endOfBatch := false } = .ofValues v
  | dropped, slot => slot.isVoid = true
  | _, _ => True

/-- A resolved sequence owns its cell. -/
theorem ownsCell_of_isResolved {f : Fate} (h : f.isResolved = true) : f.ownsCell = true := by
  cases f <;> first | rfl | cases h

/-- A slot that shows an event is not void. -/
theorem Shows.not_isVoid {v : EventValues} {slot : EventSlot} (h : (published v).Shows slot) :
    slot.isVoid = false := by
  have := congrArg EventSlot.isVoid h
  simpa using this

end Fate

/-- The fates of the sequences taken so far, by number. -/
abbrev Fates := List Fate

namespace Fates

/-- The sequence is taken and resolved. -/
def resolvedAt (fates : Fates) (s : Nat) : Bool := fates[s]?.any Fate.isResolved

/-- The first sequence that is not resolved, or not taken. -/
def reach (fates : Fates) : Nat := (fates.takeWhile Fate.isResolved).length

/-- The event that the sequence carries, with its number. -/
def eventAt (fates : Fates) (s : Nat) : Option (Nat × EventSlot) :=
  (fates[s]?.bind Fate.event?).map (s, ·)

/-- The published events below a sequence, in claim order. -/
def eventsBelow (fates : Fates) (n : Nat) : List (Nat × EventSlot) :=
  (List.range n).filterMap fates.eventAt

/-- A sequence is resolved once it was taken and published or dropped. -/
theorem resolvedAt_iff {fates : Fates} {s : Nat} :
    fates.resolvedAt s = true ↔ ∃ f, fates[s]? = some f ∧ f.isResolved = true := by
  unfold resolvedAt
  cases fates[s]? <;> simp

theorem lt_of_resolvedAt {fates : Fates} {s : Nat} (h : fates.resolvedAt s = true) :
    s < fates.length := by
  obtain ⟨f, hf, -⟩ := resolvedAt_iff.1 h
  exact (List.getElem?_eq_some_iff.1 hf).1

-- ================================================= the events below

/-- The next sequence adds its event, if it has one. -/
theorem eventsBelow_succ (fates : Fates) (n : Nat) :
    fates.eventsBelow (n + 1) = fates.eventsBelow n ++ (fates.eventAt n).toList := by
  unfold eventsBelow
  rw [List.range_succ, List.filterMap_append]
  cases h : fates.eventAt n <;> simp [h]

/-- A published one adds its values. -/
theorem eventsBelow_succ_published {fates : Fates} {n : Nat} {v : EventValues}
    (h : fates[n]? = some (.published v)) :
    fates.eventsBelow (n + 1) = fates.eventsBelow n ++ [(n, .ofValues v)] := by
  rw [eventsBelow_succ, eventAt, h]
  rfl

/-- One that was dropped adds nothing. -/
theorem eventsBelow_succ_dropped {fates : Fates} {n : Nat} (h : fates[n]? = some .dropped) :
    fates.eventsBelow (n + 1) = fates.eventsBelow n := by
  rw [eventsBelow_succ, eventAt, h]
  exact List.append_nil _

/-- The events below depend on no sequence above. -/
theorem eventsBelow_congr {fates fates' : Fates} {n : Nat}
    (h : ∀ s < n, fates'[s]? = fates[s]?) : fates'.eventsBelow n = fates.eventsBelow n := by
  induction n with
  | zero => rfl
  | succ n ih =>
      have heq : fates'.eventAt n = fates.eventAt n := by
        unfold eventAt
        rw [h n (Nat.lt_succ_self n)]
      rw [eventsBelow_succ, eventsBelow_succ, heq, ih fun s hs => h s (Nat.lt_succ_of_lt hs)]

/-- The events come in the order of their numbers, each number once. -/
theorem eventsBelow_pairwise (fates : Fates) (n : Nat) :
    (fates.eventsBelow n).Pairwise fun a b => a.1 < b.1 := by
  unfold eventsBelow
  rw [List.pairwise_filterMap]
  refine List.pairwise_lt_range.imp fun {a b} hab x hx y hy => ?_
  obtain ⟨e, -, rfl⟩ := Option.map_eq_some_iff.1 hx
  obtain ⟨e', -, rfl⟩ := Option.map_eq_some_iff.1 hy
  exact hab

/-- What is listed was published. -/
theorem mem_eventsBelow {fates : Fates} {n s : Nat} {e : EventSlot}
    (h : (s, e) ∈ fates.eventsBelow n) :
    s < n ∧ ∃ v, fates[s]? = some (.published v) ∧ e = .ofValues v := by
  obtain ⟨t, ht, he⟩ := List.mem_filterMap.1 h
  obtain ⟨e', hb, heq⟩ := Option.map_eq_some_iff.1 he
  obtain ⟨f, hf, hfe⟩ := Option.bind_eq_some_iff.1 hb
  cases heq
  refine ⟨List.mem_range.1 ht, ?_⟩
  cases f with
  | published v => exact ⟨v, hf, (Option.some.inj hfe).symm⟩
  | _ => cases hfe

/-- How many sequences below this one were given up without an event. -/
def droppedBelow (fates : Fates) (n : Nat) : Nat :=
  (List.range n).countP fun s => fates[s]?.any Fate.isDropped

/-- Where all is resolved, every sequence carries an event or was given up. -/
theorem length_eventsBelow {fates : Fates} {n : Nat}
    (h : ∀ s < n, fates.resolvedAt s = true) :
    (fates.eventsBelow n).length + fates.droppedBelow n = n := by
  induction n with
  | zero => rfl
  | succ n ih =>
      have ih := ih fun s hs => h s (Nat.lt_succ_of_lt hs)
      have hdropped : fates.droppedBelow (n + 1)
          = fates.droppedBelow n + if fates[n]?.any Fate.isDropped then 1 else 0 := by
        unfold droppedBelow
        rw [List.range_succ, List.countP_append, List.countP_singleton]
      obtain ⟨f, hf, hres⟩ := resolvedAt_iff.1 (h n (Nat.lt_succ_self n))
      rw [hdropped, hf]
      cases f with
      | published v =>
          rw [eventsBelow_succ_published hf, List.length_append, List.length_singleton]
          simp only [Option.any_some, Fate.isDropped, Bool.false_eq_true, if_false]
          omega
      | dropped =>
          rw [eventsBelow_succ_dropped hf]
          simp only [Option.any_some, Fate.isDropped, if_true]
          omega
      | _ => cases hres

-- ========================================================== the reach

/-- Everything below the reach is resolved. -/
theorem resolvedAt_of_lt_reach {fates : Fates} {s : Nat} (h : s < fates.reach) :
    fates.resolvedAt s = true := by
  unfold reach at h
  have hall := List.all_takeWhile (p := Fate.isResolved) (l := fates)
  rw [List.all_eq_true] at hall
  have hpre := List.takeWhile_prefix (l := fates) Fate.isResolved
  refine resolvedAt_iff.2 ⟨_, ?_, hall _ (List.getElem_mem h)⟩
  rw [hpre.getElem h]
  exact List.getElem?_eq_getElem _

/-- The reach itself is not resolved. -/
theorem not_resolvedAt_reach (fates : Fates) : fates.resolvedAt fates.reach = false := by
  induction fates with
  | nil => rfl
  | cons f rest ih =>
      unfold reach resolvedAt at ih ⊢
      cases hf : f.isResolved with
      | false => simp [hf]
      | true => simpa [hf] using ih

/-- The first sequence that is not resolved is the reach. -/
theorem eq_reach {fates : Fates} {n : Nat} (h : ∀ s < n, fates.resolvedAt s = true)
    (hn : fates.resolvedAt n = false) : n = fates.reach := by
  rcases Nat.lt_trichotomy n fates.reach with hlt | heq | hgt
  · rw [resolvedAt_of_lt_reach hlt] at hn
    cases hn
  · exact heq
  · have := h _ hgt
    rw [not_resolvedAt_reach] at this
    cases this

end Fates

-- =========================================================== the cells

namespace Ring

/-- No two sequences of one window live in one cell. -/
theorem index_inj {r : Ring} {c s t : Nat} (hs : c ≤ s) (hs' : s < c + r.capacity)
    (ht : c ≤ t) (ht' : t < c + r.capacity) (h : r.index s = r.index t) : s = t := by
  have hmod : s % r.capacity = t % r.capacity := h
  rcases Nat.le_total s t with hle | hle
  · have hdvd := Nat.dvd_of_mod_eq_zero (Nat.sub_mod_eq_zero_of_mod_eq hmod.symm)
    have := Nat.eq_zero_of_dvd_of_lt hdvd (by omega)
    omega
  · have hdvd := Nat.dvd_of_mod_eq_zero (Nat.sub_mod_eq_zero_of_mod_eq hmod)
    have := Nat.eq_zero_of_dvd_of_lt hdvd (by omega)
    omega

/-- To resolve a sequence changes the one cell that it shares with those a lap
away. -/
theorem cellAt_resolve (r : Ring) (s t : Nat) (slot : EventSlot) :
    (r.resolve s slot).cellAt t
      = if r.index s = r.index t then ⟨slot, s + 1⟩ else r.cellAt t :=
  Cells.get_set _ _ _ _

/-- The ring then finds the sequence resolved. -/
theorem isResolved_resolve_self (r : Ring) (s : Nat) (slot : EventSlot) :
    (r.resolve s slot).isResolved s = true := by
  unfold isResolved
  rw [cellAt_resolve, if_pos rfl]
  exact beq_self_eq_true _

theorem slotAt_resolve_self (r : Ring) (s : Nat) (slot : EventSlot) :
    (r.resolve s slot).slotAt s = slot := by
  unfold slotAt
  rw [cellAt_resolve, if_pos rfl]

theorem cellAt_resolve_of_ne {r : Ring} {s t : Nat} (h : r.index s ≠ r.index t)
    (slot : EventSlot) : (r.resolve s slot).cellAt t = r.cellAt t := by
  rw [cellAt_resolve, if_neg h]

-- ======================================================= the invariant

/-- The record of its sequences fits the ring. -/
structure Tracks (r : Ring) (fates : Fates) : Prop where
  two_le : 2 ≤ r.capacity
  length_eq : fates.length = r.claimed
  released : ∀ s < r.consumed, fates.resolvedAt s = true
  window : ∀ s f, fates[s]? = some f → f.ownsCell = true → s < r.consumed + r.capacity
  sound : ∀ s, r.isResolved s = true → fates.resolvedAt s = true
  stamped : ∀ s, r.consumed ≤ s → fates.resolvedAt s = true → r.isResolved s = true
  shown : ∀ s f, r.consumed ≤ s → fates[s]? = some f → f.Shows (r.slotAt s)
  lent_published : r.lent = true → ∃ v, fates[r.consumed]? = some (.published v)

/-- On a new ring nothing is taken, and no cell says otherwise. -/
theorem tracks_ofSize (size : Nat) : (ofSize size).Tracks [] := by
  have hblank : ∀ s, (ofSize size).cellAt s = default := fun s => Cells.get_blank _
  refine ⟨two_le_roundUp size, rfl, ?_, ?_, ?_, ?_, ?_, ?_⟩
  · intro s hs
    exact absurd hs (Nat.not_lt_zero s)
  · intro s f hf
    cases hf
  · intro s hs
    unfold isResolved at hs
    rw [hblank] at hs
    cases hs
  · intro s _ hs
    cases hs
  · intro s f _ hf
    cases hf
  · intro hl
    cases hl

variable {r : Ring} {fates : Fates} {s : Nat}

namespace Tracks

theorem consumed_le (h : r.Tracks fates) : r.consumed ≤ r.claimed := by
  rw [← h.length_eq]
  rcases Nat.eq_zero_or_pos r.consumed with h0 | hpos
  · omega
  · have := Fates.lt_of_resolvedAt (h.released (r.consumed - 1) (by omega))
    omega

/-- Sequences that are not resolved are not released either. -/
theorem le_of_unresolved (h : r.Tracks fates) (hs : fates.resolvedAt s = false) :
    r.consumed ≤ s := by
  rcases Nat.lt_or_ge s r.consumed with hlt | hge
  · rw [h.released s hlt] at hs
    cases hs
  · exact hge

/-- A resolved sequence that is not released stands in the window. -/
theorem lt_of_resolved (h : r.Tracks fates) (hs : fates.resolvedAt s = true) :
    s < r.consumed + r.capacity := by
  obtain ⟨f, hf, hr⟩ := Fates.resolvedAt_iff.1 hs
  exact h.window s f hf (Fate.ownsCell_of_isResolved hr)

end Tracks

end Ring

namespace Fates

/-- What a new fate does to the question which sequences are resolved. -/
theorem resolvedAt_set (fates : Fates) {s : Nat} (hs : s < fates.length) (f : Fate) (t : Nat) :
    resolvedAt (fates.set s f) t = if s = t then f.isResolved else fates.resolvedAt t := by
  unfold resolvedAt
  rw [List.getElem?_set, if_pos hs]
  split <;> rfl

theorem lt_of_getElem? {fates : Fates} {s : Nat} {f : Fate} (h : fates[s]? = some f) :
    s < fates.length :=
  (List.getElem?_eq_some_iff.1 h).1

theorem resolvedAt_eq {fates : Fates} {s : Nat} {f : Fate} (h : fates[s]? = some f) :
    fates.resolvedAt s = f.isResolved := by
  unfold resolvedAt
  rw [h]
  rfl

theorem set_self {fates : Fates} {s : Nat} {f : Fate} (h : fates[s]? = some f) :
    fates.set s f = fates := by
  apply List.ext_getElem?
  intro t
  rw [List.getElem?_set]
  split
  · next heq => rw [← heq, h, if_pos (lt_of_getElem? h)]
  · rfl

/-- Recording another sequence leaves a fate as it was. -/
theorem getElem?_set_of_ne {fates : Fates} {s t : Nat} (h : s ≠ t) (f : Fate) :
    (fates.set s f)[t]? = fates[t]? := by
  rw [List.getElem?_set, if_neg h]

theorem getElem?_set_self {fates : Fates} {s : Nat} {g : Fate} (h : fates[s]? = some g)
    (f : Fate) : (fates.set s f)[s]? = some f := by
  rw [List.getElem?_set, if_pos rfl, if_pos (lt_of_getElem? h)]

end Fates

-- ========================================================== resolving

namespace Ring.Tracks

variable {r : Ring} {fates : Fates} {s : Nat}

/-- Writing the cell of a sequence that owns it. Every other sequence of
the window lives elsewhere, so what is said of it stays true. -/
theorem resolve {g f : Fate} {slot : EventSlot} (h : r.Tracks fates)
    (hg : fates[s]? = some g) (hown : g.ownsCell = true) (hle : r.consumed ≤ s)
    (hlent : r.lent = true → r.consumed ≠ s) (hf : f.isResolved = true) (hshow : f.Shows slot) :
    (r.resolve s slot).Tracks (fates.set s f) := by
  have hs := Fates.lt_of_getElem? hg
  have hwin := h.window s g hg hown
  -- what the window gives: another resolved sequence keeps its cell
  have hother : ∀ t, s ≠ t → r.consumed ≤ t → fates.resolvedAt t = true →
      (r.resolve s slot).cellAt t = r.cellAt t := by
    intro t hne ht hres
    refine cellAt_resolve_of_ne (fun hidx => hne ?_) slot
    exact index_inj hle hwin ht (h.lt_of_resolved hres) hidx
  refine ⟨h.two_le, ?_, ?_, ?_, ?_, ?_, ?_, ?_⟩
  · rw [List.length_set]
    exact h.length_eq
  · intro t ht
    have ht' : t < r.consumed := ht
    rw [Fates.resolvedAt_set fates hs, if_neg (by omega)]
    exact h.released t ht'
  · intro t f' ht hown'
    by_cases hst : s = t
    · rw [← hst]
      exact hwin
    · rw [Fates.getElem?_set_of_ne hst] at ht
      exact h.window t f' ht hown'
  · intro t ht
    rw [Fates.resolvedAt_set fates hs]
    split
    · exact hf
    · next hst =>
      apply h.sound t
      unfold isResolved at ht ⊢
      rw [cellAt_resolve] at ht
      split at ht
      · have : s + 1 = t + 1 := beq_iff_eq.1 ht
        omega
      · exact ht
  · intro t ht hres
    by_cases hst : s = t
    · rw [← hst]
      exact isResolved_resolve_self r s slot
    · rw [Fates.resolvedAt_set fates hs, if_neg hst] at hres
      have := h.stamped t ht hres
      unfold isResolved at this ⊢
      rw [hother t hst ht hres]
      exact this
  · intro t f' ht hf'
    by_cases hst : s = t
    · rw [← hst, Fates.getElem?_set_self hg] at hf'
      rw [← hst, slotAt_resolve_self, ← Option.some.inj hf']
      exact hshow
    · rw [Fates.getElem?_set_of_ne hst] at hf'
      cases hres : f'.isResolved with
      | false => cases f' <;> trivial
      | true =>
          unfold slotAt
          rw [hother t hst ht (by rw [Fates.resolvedAt_eq hf', hres])]
          exact h.shown t f' ht hf'
  · intro hl
    obtain ⟨v, hv⟩ := h.lent_published hl
    exact ⟨v, by rw [← hv]; exact Fates.getElem?_set_of_ne (Ne.symm (hlent hl)) f⟩

/-- A producer's own cell is not lent to the consumer. -/
theorem ne_of_granted (h : r.Tracks fates) (hg : fates[s]? = some .granted) :
    r.lent = true → r.consumed ≠ s := by
  intro hl heq
  obtain ⟨v, hv⟩ := h.lent_published hl
  rw [heq, hg] at hv
  cases hv

/-- A granted sequence is still in front of the consumer. -/
theorem le_of_granted (h : r.Tracks fates) (hg : fates[s]? = some .granted) :
    r.consumed ≤ s :=
  h.le_of_unresolved (Fates.resolvedAt_eq hg)

/-- Publishing a granted sequence keeps track of the fates. -/
theorem publish (h : r.Tracks fates) (hg : fates[s]? = some .granted) (v : EventValues) :
    (r.publish s v).Tracks (fates.set s (.published v)) :=
  h.resolve hg rfl (h.le_of_granted hg) (h.ne_of_granted hg) rfl (EventSlot.setValues_eq _ v)

theorem abandon (h : r.Tracks fates) (hg : fates[s]? = some .granted) :
    (r.abandon s).Tracks (fates.set s .dropped) :=
  h.resolve hg rfl (h.le_of_granted hg) (h.ne_of_granted hg) rfl (EventSlot.isVoid_clear _)

-- ==================================================== taking sequences

/-- A producer's sequence changes its standing, but is not resolved. -/
theorem mark {g f : Fate} (h : r.Tracks fates) (hg : fates[s]? = some g)
    (hgu : g.isResolved = false) (hfu : f.isResolved = false)
    (hfree : f.ownsCell = true → r.isFree s = true) : r.Tracks (fates.set s f) := by
  have hs := Fates.lt_of_getElem? hg
  -- neither fate is resolved, so what is resolved stays the same
  have hres : ∀ t, Fates.resolvedAt (fates.set s f) t = fates.resolvedAt t := by
    intro t
    rw [Fates.resolvedAt_set fates hs]
    split
    · next hst => rw [← hst, Fates.resolvedAt_eq hg, hgu, hfu]
    · rfl
  refine ⟨h.two_le, ?_, ?_, ?_, ?_, ?_, ?_, ?_⟩
  · rw [List.length_set]
    exact h.length_eq
  · intro t ht
    rw [hres]
    exact h.released t ht
  · intro t f' ht hown
    by_cases hst : s = t
    · rw [← hst, Fates.getElem?_set_self hg] at ht
      have := hfree (by rw [Option.some.inj ht]; exact hown)
      rw [← hst]
      exact of_decide_eq_true this
    · rw [Fates.getElem?_set_of_ne hst] at ht
      exact h.window t f' ht hown
  · intro t ht
    rw [hres]
    exact h.sound t ht
  · intro t ht hr
    rw [hres] at hr
    exact h.stamped t ht hr
  · intro t f' ht hf'
    by_cases hst : s = t
    · rw [← hst, Fates.getElem?_set_self hg] at hf'
      rw [← Option.some.inj hf']
      cases f <;> trivial
    · rw [Fates.getElem?_set_of_ne hst] at hf'
      exact h.shown t f' ht hf'
  · intro hl
    obtain ⟨v, hv⟩ := h.lent_published hl
    refine ⟨v, ?_⟩
    rw [← hv]
    refine Fates.getElem?_set_of_ne (fun heq => ?_) f
    -- what is lent was published, so it is not the one that is marked
    rw [← heq, hg] at hv
    rw [Option.some.inj hv] at hgu
    cases hgu

/-- A sequence is taken. -/
theorem draw {f : Fate} (h : r.Tracks fates) (hu : f.isResolved = false)
    (hfree : f.ownsCell = true → r.isFree r.claimed = true) :
    ({ r with claimed := r.claimed + 1 } : Ring).Tracks (fates ++ [f]) := by
  have hold : ∀ t, t < fates.length → (fates ++ [f])[t]? = fates[t]? := fun t ht =>
    List.getElem?_append_left ht
  have hnew : (fates ++ [f])[fates.length]? = some f := List.getElem?_concat_length
  have hlast : ∀ t f', (fates ++ [f])[t]? = some f' → t < fates.length ∨ t = fates.length := by
    intro t f' ht
    have := (List.getElem?_eq_some_iff.1 ht).1
    rw [List.length_append, List.length_singleton] at this
    omega
  -- the new sequence is not resolved, so none is that was not
  have hres : ∀ t, Fates.resolvedAt (fates ++ [f]) t = fates.resolvedAt t := by
    intro t
    rcases Nat.lt_trichotomy t fates.length with hlt | heq | hgt
    · unfold Fates.resolvedAt
      rw [hold t hlt]
    · rw [heq, Fates.resolvedAt_eq hnew, hu]
      unfold Fates.resolvedAt
      rw [List.getElem?_eq_none (Nat.le_refl _)]
      rfl
    · unfold Fates.resolvedAt
      rw [List.getElem?_eq_none (by simp; omega), List.getElem?_eq_none (by omega)]
  refine ⟨h.two_le, ?_, ?_, ?_, ?_, ?_, ?_, ?_⟩
  · rw [List.length_append, List.length_singleton, h.length_eq]
  · intro t ht
    rw [hres]
    exact h.released t ht
  · intro t f' ht hown
    rcases hlast t f' ht with hlt | heq
    · rw [hold t hlt] at ht
      exact h.window t f' ht hown
    -- only the new one can be outside the window, and it was given a free cell
    · rw [heq, hnew] at ht
      have := hfree (by rw [Option.some.inj ht]; exact hown)
      rw [heq, h.length_eq]
      exact of_decide_eq_true this
  · intro t ht
    rw [hres]
    exact h.sound t ht
  · intro t ht hr
    rw [hres] at hr
    exact h.stamped t ht hr
  · intro t f' ht hf'
    rcases hlast t f' hf' with hlt | heq
    · rw [hold t hlt] at hf'
      exact h.shown t f' ht hf'
    · rw [heq, hnew] at hf'
      rw [← Option.some.inj hf']
      cases f <;> trivial
  · intro hl
    obtain ⟨v, hv⟩ := h.lent_published hl
    exact ⟨v, by rw [← hv]; exact hold _ (Fates.lt_of_getElem? hv)⟩

-- The consumer's coming and going, and the closing, touch no cursor and no cell.

/-- Closing the ring decides no fate. -/
theorem close (h : r.Tracks fates) : r.close.Tracks fates :=
  ⟨h.two_le, h.length_eq, h.released, h.window, h.sound, h.stamped, h.shown, h.lent_published⟩

theorem untake (h : r.Tracks fates) : r.untake.Tracks fates :=
  ⟨h.two_le, h.length_eq, h.released, h.window, h.sound, h.stamped, h.shown, h.lent_published⟩

theorem take {r' : Ring} (h : r.Tracks fates) (ht : r.take = some r') : r'.Tracks fates := by
  unfold Ring.take at ht
  split at ht
  · cases ht
  · cases ht
    exact ⟨h.two_le, h.length_eq, h.released, h.window, h.sound, h.stamped, h.shown,
      h.lent_published⟩

end Ring.Tracks

end LogPipeline
