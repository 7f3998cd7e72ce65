/-
Producers at a ring, and what they leave alone. A producer takes a
sequence, waits for its cell, and then publishes or lets go; it may do
any of this at any time, together with any number of others. `Traffic`
is the ring with the record of its sequences, `produce` one operation of
one producer, entered in the record.

`kept_produce` says all that others need to know of it: the record still
fits the ring, the consumer's cursor stands where it stood, and what is
resolved stays as it was. A caller that waits with an event in hand is a
producer that asks and publishes at once (`attempt_eq`).
-/
import LogPipeline.Proofs.Ring.Tracks

namespace LogPipeline

-- ========================================================== producers

/-- What producers do at a ring. -/
inductive ProducerOp where
  /-- Take a sequence, if the ring is open. -/
  | reserve
  /-- Take a sequence with its cell, if there is no need to wait. -/
  | claim
  /-- Ask for the cell of a sequence that was taken. -/
  | confirm (s : Nat)
  /-- Stop waiting for the cell: the ring is closed and has no consumer. -/
  | forsake (s : Nat)
  | publish (s : Nat) (v : EventValues)
  | abandon (s : Nat)

/-- A ring and the record of its sequences. -/
structure Traffic where
  ring : Ring
  fates : Fates

namespace Traffic

/-- The answer to a producer that asks for the cell of its sequence. -/
def confirm (s : Nat) (t : Traffic) : Traffic :=
  match t.ring.confirm s with
  | (.granted, r) => ⟨r, t.fates.set s .granted⟩
  | (.refused, r) =>
      ⟨r, t.fates.set s (if t.ring.isFree s then .dropped else .forsaken)⟩
  | (.waiting, r) => ⟨r, t.fates⟩

/-- A producer acts. Only who was granted a cell can publish or let go,
and only who waits for one can ask for it. -/
def produce (t : Traffic) (op : ProducerOp) : Traffic :=
  match op with
  | .reserve =>
      match t.ring.reserve with
      | none => t
      | some (_, r) => ⟨r, t.fates ++ [.reserved]⟩
  | .claim =>
      match t.ring.claim with
      | (.ok (some _), r) => ⟨r, t.fates ++ [.granted]⟩
      | (_, r) => ⟨r, t.fates⟩
  | .confirm s =>
      match t.fates[s]? with
      | some .reserved => t.confirm s
      | _ => t
  | .forsake s =>
      match t.fates[s]? with
      | some .reserved =>
          if t.ring.closed && !t.ring.taken then
            ⟨t.ring, t.fates.set s .forsaken⟩
          else t
      | _ => t
  | .publish s v =>
      match t.fates[s]? with
      | some .granted => ⟨t.ring.publish s v, t.fates.set s (.published v)⟩
      | _ => t
  | .abandon s =>
      match t.fates[s]? with
      | some .granted => ⟨t.ring.abandon s, t.fates.set s .dropped⟩
      | _ => t

/-- What producers leave alone: the consumer's cursor, and everything
that is settled about sequences. -/
structure Kept (t t' : Traffic) : Prop where
  tracks : t'.ring.Tracks t'.fates
  consumed_eq : t'.ring.consumed = t.ring.consumed
  lent_eq : t'.ring.lent = t.ring.lent
  closed_eq : t'.ring.closed = t.ring.closed
  taken_eq : t'.ring.taken = t.ring.taken
  settled : ∀ (s : Nat) (f : Fate), t.fates[s]? = some f →
    f.isResolved = true → t'.fates[s]? = some f
  /-- A closed ring gives out no more sequences. -/
  claimed_eq : t.ring.closed = true → t'.ring.claimed = t.ring.claimed

namespace Kept

variable {t t' : Traffic} {s : Nat}

/-- Where nothing happens everything is kept. -/
theorem refl (h : t.ring.Tracks t.fates) : Kept t t :=
  ⟨h, rfl, rfl, rfl, rfl, fun _ _ hf _ => hf, fun _ => rfl⟩

/-- What is kept twice is kept. -/
theorem trans {t'' : Traffic} (h : Kept t t') (h' : Kept t' t'') : Kept t t'' :=
  ⟨h'.tracks, h'.consumed_eq.trans h.consumed_eq, h'.lent_eq.trans h.lent_eq,
    h'.closed_eq.trans h.closed_eq, h'.taken_eq.trans h.taken_eq,
    fun s f hf hres => h'.settled s f (h.settled s f hf hres) hres,
    fun hc => (h'.claimed_eq (h.closed_eq.trans hc)).trans (h.claimed_eq hc)⟩

/-- A producer changes the fate of a sequence that is not resolved. -/
theorem of_set {r : Ring} {g f : Fate} (h : r.Tracks (t.fates.set s f))
    (hg : t.fates[s]? = some g) (hgu : g.isResolved = false)
    (hr : r.consumed = t.ring.consumed ∧ r.lent = t.ring.lent
      ∧ r.closed = t.ring.closed ∧ r.taken = t.ring.taken
      ∧ r.claimed = t.ring.claimed) :
    Kept t ⟨r, t.fates.set s f⟩ := by
  obtain ⟨hc, hl, hcl, ht, hcd⟩ := hr
  refine ⟨h, hc, hl, hcl, ht, fun u f' hf' hres => ?_, fun _ => hcd⟩
  refine (Fates.getElem?_set_of_ne (fun heq => ?_) f).trans hf'
  rw [← heq, hg] at hf'
  rw [← Option.some.inj hf', hgu] at hres
  cases hres

/-- A producer takes a sequence of an open ring. -/
theorem of_draw {f : Fate} (h : t.ring.Tracks t.fates)
    (hopen : t.ring.closed = false) (hu : f.isResolved = false)
    (hfree : f.ownsCell = true → t.ring.isFree t.ring.claimed = true) :
    Kept t ⟨{ t.ring with claimed := t.ring.claimed + 1 }, t.fates ++ [f]⟩ := by
  refine ⟨h.draw hu hfree, rfl, rfl, rfl, rfl, fun u f' hf' _ => ?_, fun hc => ?_⟩
  · exact (List.getElem?_append_left (Fates.lt_of_getElem? hf')).trans hf'
  · rw [hopen] at hc
    cases hc

/-- What is resolved stays so. -/
theorem resolvedAt (h : Kept t t') (hs : t.fates.resolvedAt s = true) :
    t'.fates.resolvedAt s = true := by
  obtain ⟨f, hf, hr⟩ := Fates.resolvedAt_iff.1 hs
  exact Fates.resolvedAt_iff.2 ⟨f, h.settled s f hf hr, hr⟩

/-- Where all is resolved, the events stay the same. -/
theorem eventsBelow_eq (h : Kept t t') {n : Nat}
    (hn : ∀ s < n, t.fates.resolvedAt s = true) :
    t'.fates.eventsBelow n = t.fates.eventsBelow n := by
  apply Fates.eventsBelow_congr
  intro s hs
  obtain ⟨f, hf, hr⟩ := Fates.resolvedAt_iff.1 (hn s hs)
  rw [hf, h.settled s f hf hr]

end Kept

/-- Asking for a cell, case by case as the ring answers. -/
theorem kept_confirm {t : Traffic} {s : Nat} (h : t.ring.Tracks t.fates)
    (hg : t.fates[s]? = some .reserved) : Kept t (t.confirm s) := by
  unfold confirm Ring.confirm
  by_cases hfree : t.ring.isFree s = true
  · -- the cell is free: granted by an open ring, dropped by a closed one
    have hgrant := h.mark hg (f := .granted) rfl rfl (fun _ => hfree)
    cases hcl : t.ring.closed with
    | false =>
        simp only [hfree, if_true, Bool.false_eq_true, if_false]
        exact .of_set hgrant hg rfl ⟨rfl, rfl, rfl, rfl, rfl⟩
    | true =>
        simp only [hfree, if_true]
        have hdrop := hgrant.abandon (Fates.getElem?_set_self hg .granted)
        rw [List.set_set] at hdrop
        exact .of_set hdrop hg rfl ⟨rfl, rfl, rfl, rfl, rfl⟩
  · -- the cell is not free: let go of, or waited for
    simp only [hfree, if_false, Bool.false_eq_true]
    cases hgone : t.ring.closed && !t.ring.taken with
    | true =>
        simp only [if_true]
        exact .of_set (h.mark hg rfl rfl fun hc => by cases hc) hg rfl
          ⟨rfl, rfl, rfl, rfl, rfl⟩
    | false =>
        simp only [Bool.false_eq_true, if_false]
        exact .refl h

/-- Producers keep the record in step with the ring. -/
theorem kept_produce {t : Traffic} (h : t.ring.Tracks t.fates) (op : ProducerOp) :
    Kept t (t.produce op) := by
  cases op with
  | reserve =>
      show Kept t (match t.ring.reserve with
        | none => t
        | some (_, r) => ⟨r, t.fates ++ [.reserved]⟩)
      unfold Ring.reserve
      by_cases hcl : t.ring.closed = true
      · rw [if_pos hcl]
        exact .refl h
      · rw [if_neg hcl]
        exact .of_draw h (Bool.eq_false_iff.2 hcl) rfl fun hc => by cases hc
  | claim =>
      show Kept t (match t.ring.claim with
        | (.ok (some _), r) => ⟨r, t.fates ++ [.granted]⟩
        | (_, r) => ⟨r, t.fates⟩)
      unfold Ring.claim
      by_cases hcl : t.ring.closed = true
      · rw [if_pos hcl]
        exact .refl h
      · rw [if_neg hcl]
        by_cases hfree : t.ring.isFree t.ring.claimed = true
        · rw [if_pos hfree]
          -- a claim is granted at once, and so needs a free cell
          exact .of_draw h (Bool.eq_false_iff.2 hcl) rfl fun _ => hfree
        · rw [if_neg hfree]
          exact .refl h
  | confirm s =>
      unfold produce
      simp only
      split
      · next hg => exact kept_confirm h hg
      · exact .refl h
  | forsake s =>
      unfold produce
      simp only
      split
      · next hg =>
        split
        · exact .of_set (h.mark hg rfl rfl fun hc => by cases hc) hg rfl
            ⟨rfl, rfl, rfl, rfl, rfl⟩
        · exact .refl h
      · exact .refl h
  | publish s v =>
      unfold produce
      simp only
      split
      · next hg => exact .of_set (h.publish hg v) hg rfl ⟨rfl, rfl, rfl, rfl, rfl⟩
      · exact .refl h
  | abandon s =>
      unfold produce
      simp only
      split
      · next hg => exact .of_set (h.abandon hg) hg rfl ⟨rfl, rfl, rfl, rfl, rfl⟩
      · exact .refl h

-- ====================================================== closed rings

/-- On a closed ring, a sequence that carries no event gets none. -/
def MuteAt (t : Traffic) (s : Nat) : Prop := ∀ f : Fate, t.fates[s]? = some f → f.isMute = true

/-- A new fate leaves a mute sequence mute, if it is not that one's or mute
itself. -/
theorem muteAt_set {t : Traffic} {r : Ring} {s u : Nat} {g : Fate} (h : t.MuteAt s)
    (hg : u = s → g.isMute = true) : MuteAt ⟨r, t.fates.set u g⟩ s := by
  intro f hf
  by_cases hu : u = s
  · have hlt : u < t.fates.length := by
      have := Fates.lt_of_getElem? hf
      rw [List.length_set] at this
      omega
    have hf' : (t.fates.set u g)[s]? = some f := hf
    rw [← hu, List.getElem?_set_self hlt] at hf'
    rw [← Option.some.inj hf']
    exact hg hu
  · exact h f ((Fates.getElem?_set_of_ne hu g).symm.trans hf)

/-- On a closed ring no producer gives a mute sequence an event. -/
theorem muteAt_produce {t : Traffic} {s : Nat} (hclosed : t.ring.closed = true)
    (h : t.MuteAt s) (op : ProducerOp) : (t.produce op).MuteAt s := by
  cases op with
  | reserve =>
      show MuteAt (match t.ring.reserve with
        | none => t
        | some (_, r) => ⟨r, t.fates ++ [.reserved]⟩) s
      unfold Ring.reserve
      rw [if_pos hclosed]
      exact h
  | claim =>
      show MuteAt (match t.ring.claim with
        | (.ok (some _), r) => ⟨r, t.fates ++ [.granted]⟩
        | (_, r) => ⟨r, t.fates⟩) s
      unfold Ring.claim
      rw [if_pos hclosed]
      exact h
  | confirm u =>
      unfold produce
      simp only
      split
      · unfold confirm
        split
        · -- a closed ring grants nothing
          next r hr =>
          unfold Ring.confirm at hr
          rw [hclosed] at hr
          split at hr
          · cases hr
          · split at hr <;> cases hr
        · exact muteAt_set h fun _ => by split <;> rfl
        · exact h
      · exact h
  | forsake u =>
      unfold produce
      simp only
      split
      · split
        · exact muteAt_set h fun _ => rfl
        · exact h
      · exact h
  | publish u v =>
      unfold produce
      simp only
      split
      · next hg =>
        apply muteAt_set h
        intro hu
        have := h .granted (hu ▸ hg)
        cases this
      · exact h
  | abandon u =>
      unfold produce
      simp only
      split
      · exact muteAt_set h fun _ => rfl
      · exact h

-- =================================================== callers that wait

/-- A producer asks for the cell of its sequence, and publishes if the cell
is granted. -/
def attempt (w : Ring.Waiter) (t : Traffic) : Traffic :=
  (t.produce (.confirm w.sequence)).produce (.publish w.sequence w.values)

/-- A waiter that tries again leaves alone what it should. -/
theorem kept_attempt {t : Traffic} (h : t.ring.Tracks t.fates) (w : Ring.Waiter) :
    Kept t (t.attempt w) :=
  have hasked := kept_produce h (.confirm w.sequence)
  hasked.trans (kept_produce hasked.tracks (.publish w.sequence w.values))

/-- What becomes of a sequence whose producer was told this. -/
def Told (w : Ring.Waiter) (answer : Option (Except LogError Nat)) (f : Fate) : Prop :=
  match answer with
  | some (.ok _) => f = .published w.values
  | some (.error _) => f = .dropped ∨ f = .forsaken
  | none => f = .reserved

/-- What is published is the event of that producer. -/
theorem Told.values_eq {w : Ring.Waiter} {answer : Option (Except LogError Nat)}
    {v : EventValues} (h : Told w answer (.published v)) : v = w.values := by
  rcases answer with _ | (_ | _)
  · cases h
  · rcases h with h | h <;> cases h
  · cases h
    rfl

theorem produce_confirm {t : Traffic} {s : Nat} (hs : t.fates[s]? = some .reserved) :
    t.produce (.confirm s) = t.confirm s := by
  show (match t.fates[s]? with
    | some .reserved => t.confirm s
    | _ => t) = _
  rw [hs]

theorem produce_publish {t : Traffic} {s : Nat} (hs : t.fates[s]? = some .granted)
    (v : EventValues) :
    t.produce (.publish s v) = ⟨t.ring.publish s v, t.fates.set s (.published v)⟩ := by
  show (match t.fates[s]? with
    | some .granted => (⟨t.ring.publish s v, t.fates.set s (.published v)⟩ : Traffic)
    | _ => t) = _
  rw [hs]

/-- Who was not granted the cell does not publish. -/
theorem produce_publish_idle {r : Ring} {fates : Fates} {s : Nat} {f : Fate}
    (hs : fates[s]? = some f) (hf : f ≠ .granted) (v : EventValues) :
    Traffic.produce ⟨r, fates⟩ (.publish s v) = ⟨r, fates⟩ := by
  show (match fates[s]? with
    | some .granted => (⟨r.publish s v, fates.set s (.published v)⟩ : Traffic)
    | _ => ⟨r, fates⟩) = _
  rw [hs]
  cases f with
  | granted => exact absurd rfl hf
  | _ => rfl

/-- It is told the fate that is entered for its sequence. -/
theorem attempt_eq {t : Traffic} {w : Ring.Waiter}
    (hw : t.fates[w.sequence]? = some .reserved) :
    ∃ f, Told w (t.ring.retry w).1 f
      ∧ t.attempt w = ⟨(t.ring.retry w).2, t.fates.set w.sequence f⟩ := by
  obtain ⟨s, v⟩ := w
  have hs : t.fates[s]? = some .reserved := hw
  show ∃ f, _ ∧ (t.produce (.confirm s)).produce (.publish s v) = _
  rw [produce_confirm hs]
  unfold Ring.retry confirm
  dsimp only
  rcases t.ring.confirm s with ⟨answer, r⟩
  cases answer with
  | granted =>
      refine ⟨.published v, rfl, ?_⟩
      have hset : (t.fates.set s .granted)[s]? = some .granted := Fates.getElem?_set_self hs _
      rw [produce_publish hset]
      simp only [List.set_set]
  | refused =>
      -- a free cell is left void, and one that is not free is forsaken
      by_cases hfree : t.ring.isFree s = true
      · have hset : (t.fates.set s .dropped)[s]? = some .dropped := Fates.getElem?_set_self hs _
        refine ⟨.dropped, .inl rfl, ?_⟩
        simp only [hfree, if_true]
        exact produce_publish_idle hset (fun h => by cases h) v
      · have hset : (t.fates.set s .forsaken)[s]? = some .forsaken :=
          Fates.getElem?_set_self hs _
        refine ⟨.forsaken, .inr rfl, ?_⟩
        simp only [hfree, if_false, Bool.false_eq_true]
        exact produce_publish_idle hset (fun h => by cases h) v
  | waiting =>
      refine ⟨.reserved, rfl, ?_⟩
      have hsame : t.fates.set s .reserved = t.fates := by
        obtain ⟨hlt, hget⟩ := List.getElem?_eq_some_iff.1 hs
        rw [← hget]
        exact List.set_getElem_self hlt
      dsimp only
      rw [hsame]
      exact produce_publish_idle hs (fun h => by cases h) v

end Traffic

end LogPipeline
