/-
No cell has two owners. What reads and writes the cells of a ring does so
without looking at who else might, so it has to be settled beforehand
whose a cell is. It is settled by the window: `Occupied` gathers the
sequences that have a use for their cell, be it that a producer holds it,
that the consumer has not released it, or that it is lent out. All of
them stand in `[consumed, consumed + capacity)`, and `Ring.index_inj`
says that no two sequences of one window live in one cell.

A cell changes hands in two places. A producer is granted it only when
the window has come to its sequence (`granted_of_step`), so all earlier
generations of the cell are released by then (`Ring.le_of_index_eq`). And
the consumer goes by the stamp, which from its cursor on speaks of no
generation but the one asked about (`Ring.Tracks.isResolved_iff`).
-/
import LogPipeline.Proofs.Ring.Delivery
import Mathlib.Algebra.Group.Nat.Defs

namespace LogPipeline

/-- To be resolved is to be published or given up. -/
theorem Fates.resolvedAt_iff_cases {fates : Fates} {s : Nat} :
    fates.resolvedAt s = true ↔
      (∃ v, fates[s]? = some (.published v)) ∨ fates[s]? = some .dropped := by
  rw [resolvedAt_iff]
  constructor
  · rintro ⟨f, hf, hres⟩
    cases f with
    | published v => exact .inl ⟨v, hf⟩
    | dropped => exact .inr hf
    | _ => cases hres
  · rintro (⟨v, hv⟩ | hd)
    · exact ⟨_, hv, rfl⟩
    · exact ⟨_, hd, rfl⟩

-- ============================================================= geometry

namespace Ring

variable {r : Ring} {s t : Nat}

/-- A ring is made of any size from 1 to `2 ^ 24`. -/
theorem create_eq_ok_iff (size : Nat) :
    create size = .ok (ofSize size) ↔ 1 ≤ size ∧ size ≤ 2 ^ 24 := by
  unfold create maxSize
  split
  · next h => exact ⟨fun heq => (nomatch heq), fun hsize => by omega⟩
  · next h => exact ⟨fun _ => by omega, fun _ => rfl⟩

/-- No power of two that is large enough is smaller. -/
theorem roundUp_le_pow {size k : Nat} (h : max 2 size ≤ 2 ^ k) : roundUp size ≤ 2 ^ k := by
  have hlog : (max 2 size - 1).log2 < k := (Nat.log2_lt (by omega)).2 (by omega)
  exact Nat.pow_le_pow_right (by omega) hlog

/-- The remainder by a power of two is what the mask leaves. -/
theorem index_eq_and {k : Nat} (hk : r.capacity = 2 ^ k) (s : Nat) :
    r.index s = s &&& (r.capacity - 1) := by
  unfold index
  rw [hk, Nat.and_two_pow_sub_one_eq_mod]

/-- Generations of one cell are a whole capacity apart. -/
theorem le_of_index_eq (hlt : t < s) (h : r.index t = r.index s) : t + r.capacity ≤ s := by
  rcases Nat.lt_or_ge s (t + r.capacity) with hnear | hfar
  · have := index_inj (Nat.le_refl t) (by omega) (Nat.le_of_lt hlt) hnear h
    omega
  · exact hfar

/-- Neighbours do not share a cell. -/
theorem index_succ_ne (h : 2 ≤ r.capacity) (s : Nat) : r.index (s + 1) ≠ r.index s := by
  intro heq
  have := le_of_index_eq (Nat.lt_succ_self s) heq.symm
  omega

/-- From the cursor on, a stamp speaks of its own sequence. -/
theorem Tracks.isResolved_iff {fates : Fates} (h : r.Tracks fates) (hs : r.consumed ≤ s) :
    r.isResolved s = true ↔ fates.resolvedAt s = true :=
  ⟨h.sound s, h.stamped s hs⟩

-- ============================================ no operation resizes a ring

theorem capacity_confirm (r : Ring) (s : Nat) : (r.confirm s).2.capacity = r.capacity := by
  unfold confirm
  split
  · split
    · rfl
    · rfl
  · split
    · rfl
    · rfl

/-- To skip void sequences makes no cells. -/
theorem capacity_skipVoid (fuel : Nat) (r : Ring) :
    (skipVoid fuel r).capacity = r.capacity := by
  induction fuel generalizing r with
  | zero => rfl
  | succ fuel ih =>
    unfold skipVoid
    split
    · exact ih r.release
    · rfl

theorem capacity_tryNext (r : Ring) : r.tryNext.2.capacity = r.capacity := by
  unfold tryNext
  dsimp only
  split
  · exact capacity_skipVoid r.backlog r
  · exact capacity_skipVoid r.backlog r

end Ring

namespace Traffic

theorem capacity_confirm (s : Nat) (t : Traffic) :
    (t.confirm s).ring.capacity = t.ring.capacity := by
  have hring : (t.confirm s).ring = (t.ring.confirm s).2 := by
    unfold confirm
    rcases t.ring.confirm s with ⟨_ | _ | _, r⟩
    · rfl
    · rfl
    · rfl
  rw [hring, Ring.capacity_confirm]

/-- No producer changes the number of cells. -/
theorem capacity_produce (t : Traffic) (op : ProducerOp) :
    (t.produce op).ring.capacity = t.ring.capacity := by
  cases op with
  | reserve =>
    simp only [produce, Ring.reserve]
    by_cases hc : t.ring.closed = true
    · rw [if_pos hc]
    · rw [if_neg hc]
  | claim =>
    simp only [produce, Ring.claim]
    by_cases hc : t.ring.closed = true
    · rw [if_pos hc]
    · rw [if_neg hc]
      by_cases hfree : t.ring.isFree t.ring.claimed = true
      · rw [if_pos hfree]
      · rw [if_neg hfree]
  | confirm s =>
    simp only [produce]
    split
    · exact capacity_confirm s t
    · rfl
  | forsake s =>
    simp only [produce]
    split
    · split
      · rfl
      · rfl
    · rfl
  | publish s v =>
    simp only [produce]
    split
    · rfl
    · rfl
  | abandon s =>
    simp only [produce]
    split
    · rfl
    · rfl

end Traffic

namespace Scene

variable {sc : Scene} {s t : Nat}

theorem capacity_step (sc : Scene) (op : RingOp) :
    (sc.step op).ring.capacity = sc.ring.capacity := by
  cases op with
  | produce op => exact Traffic.capacity_produce sc.traffic op
  | arrive =>
    simp only [step]
    split
    · rfl
    · rfl
  | draw =>
    simp only [step]
    split
    · rfl
    · rfl
  | take =>
    simp only [step, Ring.take]
    by_cases htaken : sc.ring.taken = true
    · rw [if_pos htaken]
      rfl
    · rw [if_neg htaken]
      rfl
  | untake =>
    simp only [step]
    split
    · rfl
    · rfl
  | next =>
    simp only [step]
    split
    · have hring : sc.ask.ring = sc.ring.tryNext.2 := by
        unfold ask
        rcases sc.ring.tryNext with ⟨_ | e, r⟩
        · rfl
        · rfl
      rw [hring, Ring.capacity_tryNext]
    · rfl
  | release =>
    simp only [step]
    split
    · rfl
    · rfl
  | close => rfl

/-- The number of cells is the same along a run. -/
theorem capacity_run (ops : List RingOp) (sc : Scene) :
    (sc.run ops).ring.capacity = sc.ring.capacity := by
  induction ops generalizing sc with
  | nil => rfl
  | cons op rest ih => exact (ih (sc.step op)).trans (capacity_step sc op)

-- ============================================================= granting

/-- Only a producer that asks for a cell is granted one. -/
theorem granted_of_not_produce {op : RingOp} (hop : ∀ p, op ≠ .produce p)
    (h : (sc.step op).fates[s]? = some .granted) : sc.fates[s]? = some .granted := by
  cases op with
  | produce p => exact absurd rfl (hop p)
  | draw =>
    simp only [step] at h
    split at h
    · exact h
    · have happend : (sc.fates ++ [Fate.reserved])[s]? = some .granted := h
      -- a sequence that is drawn is reserved, so a granted one was there before
      rcases Nat.lt_or_ge s sc.fates.length with hlt | hge
      · rwa [List.getElem?_append_left hlt] at happend
      · rw [List.getElem?_append_right hge, List.getElem?_singleton] at happend
        split at happend
        · cases happend
        · cases happend
  | arrive =>
    simp only [step] at h
    split at h
    · exact h
    · exact h
  | take =>
    simp only [step, Ring.take] at h
    by_cases htaken : sc.ring.taken = true
    · rw [if_pos htaken] at h
      exact h
    · rw [if_neg htaken] at h
      exact h
  | untake =>
    simp only [step] at h
    split at h
    · exact h
    · exact h
  | next =>
    simp only [step] at h
    split at h
    · unfold ask at h
      split at h
      · exact h
      · exact h
    · exact h
  | release =>
    simp only [step] at h
    split at h
    · exact h
    · exact h
  | close => exact h

/-- A cell is granted only once the window has come to its sequence. -/
theorem granted_of_step (hinv : sc.Inv) {op : RingOp} (hbefore : sc.fates[s]? ≠ some .granted)
    (hafter : (sc.step op).fates[s]? = some .granted) :
    s < sc.ring.consumed + sc.ring.capacity := by
  by_cases hop : ∃ p, op = .produce p
  · obtain ⟨p, rfl⟩ := hop
    have hkept := Traffic.kept_produce hinv.tracks p
    have hwindow := hkept.tracks.window s .granted hafter rfl
    rw [hkept.consumed_eq, Traffic.capacity_produce] at hwindow
    exact hwindow
  · exact absurd (granted_of_not_produce (fun p hp => hop ⟨p, hp⟩) hafter) hbefore

-- ============================================================ occupancy

/-- The sequence has a use for its cell. -/
inductive Occupied (sc : Scene) (s : Nat) : Prop
  /-- Its producer holds the cell. -/
  | granted (h : sc.fates[s]? = some .granted)
  /-- Its event has not been released. -/
  | published (v : EventValues) (h : sc.fates[s]? = some (.published v))
      (hle : sc.ring.consumed ≤ s)
  /-- Its cell was left void, and the consumer has yet to pass over it. -/
  | dropped (h : sc.fates[s]? = some .dropped) (hle : sc.ring.consumed ≤ s)
  /-- Its event is lent to the consumer. -/
  | lent (h : sc.ring.lent = true) (heq : s = sc.ring.consumed)

/-- What holds a cell is at most one lap ahead of the consumer. -/
theorem Occupied.in_window (hinv : sc.Inv) (h : sc.Occupied s) :
    sc.ring.consumed ≤ s ∧ s < sc.ring.consumed + sc.ring.capacity := by
  cases h with
  | granted h => exact ⟨hinv.tracks.le_of_granted h, hinv.tracks.window s _ h rfl⟩
  | published v h hle => exact ⟨hle, hinv.tracks.window s _ h rfl⟩
  | dropped h hle => exact ⟨hle, hinv.tracks.window s _ h rfl⟩
  | lent h heq =>
    have := sc.ring.capacity_pos
    omega

/-- Whatever producers and the consumer do on a ring of an allowed size,
its capacity is the least power of two that fits, a sequence lives in the
cell of its number modulo that, and then: all sequences that have a use
for their cell stand in one window, so no two of them share a cell; a
producer is granted a cell only after every earlier generation of it was
released; from the cursor on, a cell says that a sequence is resolved just
if that very sequence was; what is lent was published, and the cell that is
looked at to tell the end of a batch is another one. -/
theorem cells_exclusive (size : Nat) (ops : List RingOp) :
    let sc := (start size).run ops
    (Ring.create size = .ok (start size).ring ↔ 1 ≤ size ∧ size ≤ 2 ^ 24)
      ∧ ((∃ k, sc.ring.capacity = 2 ^ k) ∧ max 2 size ≤ sc.ring.capacity
        ∧ ∀ k, max 2 size ≤ 2 ^ k → sc.ring.capacity ≤ 2 ^ k)
      ∧ (∀ s, sc.ring.index s = s % sc.ring.capacity
        ∧ sc.ring.index s = s &&& (sc.ring.capacity - 1))
      ∧ (∀ s, sc.Occupied s →
        sc.ring.consumed ≤ s ∧ s < sc.ring.consumed + sc.ring.capacity)
      ∧ (∀ s t, sc.Occupied s → sc.Occupied t → sc.ring.index s = sc.ring.index t → s = t)
      ∧ (∀ op s, sc.fates[s]? ≠ some .granted → (sc.step op).fates[s]? = some .granted →
        ∀ t < s, sc.ring.index t = sc.ring.index s → t < sc.ring.consumed)
      ∧ (∀ s, sc.ring.consumed ≤ s → (sc.ring.isResolved s = true ↔
        (∃ v, sc.fates[s]? = some (.published v)) ∨ sc.fates[s]? = some .dropped))
      ∧ (sc.ring.lent = true → ∃ v, sc.fates[sc.ring.consumed]? = some (.published v))
      ∧ sc.ring.index (sc.ring.consumed + 1) ≠ sc.ring.index sc.ring.consumed := by
  intro sc
  have hinv : sc.Inv := inv_run ops (inv_start size)
  have hcap : sc.ring.capacity = Ring.roundUp size := capacity_run ops (start size)
  obtain ⟨k, hk⟩ : ∃ k, Ring.roundUp size = 2 ^ k := ⟨_, rfl⟩
  refine ⟨Ring.create_eq_ok_iff size, ⟨⟨k, hcap.trans hk⟩, ?_, fun j hj => ?_⟩,
    fun s => ⟨rfl, Ring.index_eq_and (hcap.trans hk) s⟩, fun s hs => hs.in_window hinv,
    fun s t hs ht heq => ?_, fun op s hbefore hafter t hlt heq => ?_, fun s hs => ?_,
    hinv.tracks.lent_published, Ring.index_succ_ne hinv.tracks.two_le _⟩
  · rw [hcap]
    exact Ring.max_le_roundUp size
  · rw [hcap]
    exact Ring.roundUp_le_pow hj
  -- two sequences of one window are less than a lap apart
  · obtain ⟨hs, hs'⟩ := hs.in_window hinv
    obtain ⟨ht, ht'⟩ := ht.in_window hinv
    exact Ring.index_inj hs hs' ht ht' heq
  · have hgrant := granted_of_step hinv hbefore hafter
    -- one lap or more behind is below the consumer
    have hgeneration := Ring.le_of_index_eq hlt heq
    omega
  · rw [hinv.tracks.isResolved_iff hs, Fates.resolvedAt_iff_cases]

end Scene

end LogPipeline
