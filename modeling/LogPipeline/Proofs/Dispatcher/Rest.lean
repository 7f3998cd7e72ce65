/-
A dispatcher that is left to itself comes to rest, if its handler holds
nothing up (`rested_settle`).

Here steps are taken together, from the top of a pass on. A pass drains
the ring as far as it is resolved (`walk_drain`), serves the tickets that
were given out (`walk_serve`), and has to decide then (`walk_pass`). An
open ring is waited for. On a closed one the pass after the last event
finds nothing to drain: if nothing is missing, the dispatcher leaves
(`Swept.leave`) and closes its handler (`Swept.finish`), else it waits for
what is missing (`Swept.wait`). So there are two passes at most and three
steps after them, for which `settle` has enough.
-/
import LogPipeline.Proofs.Dispatcher.Shutdown

namespace LogPipeline

/-- One ring after the other: what is resolved was taken off, and nothing
else is different. -/
structure Ring.Drained (fates : Fates) (r r' : Ring) : Prop where
  tracks : r'.Tracks fates
  lent_eq : r'.lent = false
  consumed_eq : r'.consumed = fates.reach
  claimed_eq : r'.claimed = r.claimed
  closed_eq : r'.closed = r.closed
  taken_eq : r'.taken = r.taken

namespace Ring

variable {r : Ring} {fates : Fates}

/-- There is nothing to read just where the first unresolved sequence stands. -/
theorem hasAvailable_eq_false_iff (h : r.Tracks fates) :
    r.hasAvailable = false ↔ r.consumed = fates.reach := by
  have hstamp : r.hasAvailable = true ↔ fates.resolvedAt r.consumed = true :=
    ⟨h.sound _, h.stamped _ (Nat.le_refl _)⟩
  rw [← Bool.not_eq_true, hstamp, Bool.not_eq_true]
  constructor
  · exact Fates.eq_reach h.released
  · intro hreach
    rw [hreach]
    exact Fates.not_resolvedAt_reach fates

end Ring

namespace Dispatcher

variable {H : Type} {h : Handler H} {d d' : Dispatcher} {s s' : Shared H} {fates : Fates}

-- ================================================================ walks

/-- From one state to another in so many steps. -/
inductive Walk (h : Handler H) : Nat → Dispatcher × Shared H → Dispatcher × Shared H → Prop where
  | rest (x : Dispatcher × Shared H) : Walk h 0 x x
  | next {n : Nat} {x y z : Dispatcher × Shared H} (first : step h x.1 x.2 = some y)
      (later : Walk h n y z) : Walk h (n + 1) x z

namespace Walk

variable {m n : Nat} {x y z : Dispatcher × Shared H}

theorem one (hs : step h x.1 x.2 = some y) : Walk h 1 x y := .next hs (.rest y)

/-- Walks one after the other are a walk. -/
theorem trans (hxy : Walk h m x y) (hyz : Walk h n y z) : Walk h (m + n) x z := by
  induction hxy with
  | rest x =>
      rw [Nat.zero_add]
      exact hyz
  | next first later ih =>
      rw [Nat.add_right_comm]
      exact .next first (ih hyz)

/-- To settle from where a walk starts is to settle from where it ends, with
fewer steps left. -/
theorem settleFor (hxy : Walk h m x y) (n : Nat) :
    settleFor h (m + n) x.1 x.2 = Dispatcher.settleFor h n y.1 y.2 := by
  induction hxy with
  | rest x => rw [Nat.zero_add]
  | next first later ih =>
      rw [Nat.add_right_comm, Dispatcher.settleFor, first]
      exact ih

/-- A walk that ends where the dispatcher rests is what settling does. -/
theorem settle (hxy : Walk h m (d, s) (d', s')) (hm : m ≤ d.enough)
    (hrest : step h d' s' = none) : d.settle h s = (d', s') := by
  have hfor := hxy.settleFor (d.enough - m)
  rw [Nat.add_sub_cancel' hm] at hfor
  refine hfor.trans ?_
  show Dispatcher.settleFor h (d.enough - m) d' s' = (d', s')
  cases d.enough - m with
  | zero => rfl
  | succ fuel => rw [Dispatcher.settleFor, hrest]

end Walk

-- ========================================================== one pass

/-- Whatever the handler has made of what is shared. -/
theorem some_of_fst {x : Dispatcher × Shared H} (hx : x.1 = d) :
    ∃ s', some x = some (d, s') := ⟨x.2, hx ▸ rfl⟩

/-- Draining takes a step for each event and one more; `handled` tells of
events just if there was something to drain. -/
theorem walk_drain (hp : h.Prompt) (ht : d.ring.Tracks fates) (hl : d.ring.lent = false)
    {handled : Bool} (hphase : d.phase = .draining handled) (s : Shared H) :
    ∃ n r handled' s', n ≤ d.ring.backlog + 1
      ∧ Walk h n (d, s) ({ d with ring := r, phase := .checking handled' }, s')
      ∧ Ring.Drained fates d.ring r
      ∧ (d.ring.consumed = fates.reach → handled' = handled) := by
  induction hb : d.ring.backlog using Nat.strongRecOn generalizing d handled s with
  | ind b ih =>
  rcases hn : d.ring.tryNext with ⟨_ | e, r⟩
  · have hstep : step h d s = some ({ d with ring := r, phase := .checking handled }, s) := by
      simp only [step, hphase, hn]
    obtain ⟨hpass, hreach⟩ := Ring.tryNext_none ht hn
    refine ⟨1, r, handled, s, by omega, .one hstep, ?_, fun _ => rfl⟩
    exact ⟨hpass.tracks, Ring.lent_tryNext_none hl hn, hreach, hpass.claimed_eq,
      hpass.closed_eq, hpass.taken_eq⟩
  · obtain ⟨hpass, hlent, -, v, hv, -⟩ := Ring.tryNext_some ht hl hn
    obtain ⟨-, -, hreleased, -⟩ := Ring.release_lent hpass.tracks hlent
    obtain ⟨d₁, hd₁⟩ : ∃ d₁, d₁ = { d with phase := .draining true, ring := r.release } :=
      ⟨_, rfl⟩
    obtain ⟨s₁, hstep⟩ : ∃ s₁, step h d s = some (d₁, s₁) := by
      simp only [step, hphase, hn]
      rw [hd₁]
      exact some_of_fst (afterEvent_ended (hp.onEvent _ _ _))
    -- one event fewer is left to drain
    have hbacklog : d₁.ring.backlog < d.ring.backlog := by
      have hlt := Fates.lt_of_getElem? hv
      rw [hpass.tracks.length_eq] at hlt
      have hle := hpass.le
      have hclaimed := hpass.claimed_eq
      rw [hd₁]
      show r.claimed - (r.consumed + 1) < d.ring.claimed - d.ring.consumed
      omega
    have ht₁ : d₁.ring.Tracks fates := hd₁ ▸ hreleased
    have hl₁ : d₁.ring.lent = false := hd₁ ▸ rfl
    have hphase₁ : d₁.phase = .draining true := hd₁ ▸ rfl
    obtain ⟨n, r', handled', s', hn', hwalk, hdrained, -⟩ :=
      ih d₁.ring.backlog (hb ▸ hbacklog) ht₁ hl₁ hphase₁ s₁ rfl
    refine ⟨n + 1, r', handled', s', by omega, .next hstep ?_, ?_, fun hreach => ?_⟩
    · rw [show ({ d with ring := r', phase := .checking handled' } : Dispatcher)
        = { d₁ with ring := r', phase := .checking handled' } by rw [hd₁]]
      exact hwalk
    · rw [hd₁] at hdrained
      exact ⟨hdrained.tracks, hdrained.lent_eq, hdrained.consumed_eq,
        hdrained.claimed_eq.trans hpass.claimed_eq, hdrained.closed_eq.trans hpass.closed_eq,
        hdrained.taken_eq.trans hpass.taken_eq⟩
    · -- an event that is handed out was there to drain
      have havailable := Ring.hasAvailable_of_tryNext hn
      rw [(Ring.hasAvailable_eq_false_iff ht).2 hreach] at havailable
      cases havailable

/-- All tickets that were given out are served. -/
theorem walk_serve (hp : h.Prompt) {handled : Bool} (hphase : d.phase = .checking handled)
    (hle : d.covered ≤ d.requested) (hcompleted : d.completed = d.covered) (s : Shared H) :
    ∃ n s', n ≤ 3 ∧ Walk h n (d, s)
      ({ d with phase := .deciding handled, covered := d.requested, completed := d.requested },
        s') := by
  by_cases hdue : d.covered < d.requested
  · obtain ⟨d₁, hd₁⟩ : ∃ d₁, d₁ = { d with phase := .flushing handled d.requested } := ⟨_, rfl⟩
    obtain ⟨d₂, hd₂⟩ : ∃ d₂, d₂ = { d with phase := .storing handled d.requested } := ⟨_, rfl⟩
    have hcheck : step h d s = some (d₁, s) := by
      simp only [step, hphase, hdue, if_true, hd₁]
    obtain ⟨s', hflush⟩ : ∃ s', step h d₁ s = some (d₂, s') := by
      simp only [step, hd₁]
      rw [hd₂]
      exact some_of_fst (afterFlush_ended (hp.onFlush _))
    refine ⟨3, s', Nat.le_refl 3, .next hcheck (.next hflush (.one ?_))⟩
    simp only [step, hd₂]
  · have heq : d.covered = d.requested := by omega
    refine ⟨1, s, by omega, .one ?_⟩
    simp only [step, hphase, hdue, if_false]
    rw [← heq, ← hcompleted]

/-- How a dispatcher stands between passes, with nobody held up. -/
structure Calm (fates : Fates) (d : Dispatcher) : Prop where
  tracks : d.ring.Tracks fates
  lent_eq : d.ring.lent = false
  taken_eq : d.ring.taken = true
  closed_eq : d.ring.closed = d.closed
  stopRequested : d.closed = true → d.stopRequested = true
  expired_eq : d.expired = false
  abandoned_eq : d.abandoned = 0
  covered_le : d.covered ≤ d.requested
  completed_eq : d.completed = d.covered

/-- What nobody changes about a dispatcher but from outside. -/
structure Same (d d' : Dispatcher) : Prop where
  stopRequested_eq : d'.stopRequested = d.stopRequested
  requested_eq : d'.requested = d.requested
  attached_eq : d'.attached = d.attached
  claimed_eq : d'.ring.claimed = d.ring.claimed

theorem Same.refl (d : Dispatcher) : Same d d := ⟨rfl, rfl, rfl, rfl⟩

theorem Same.trans {d'' : Dispatcher} (h : Same d d') (h' : Same d' d'') : Same d d'' :=
  ⟨h'.stopRequested_eq.trans h.stopRequested_eq, h'.requested_eq.trans h.requested_eq,
    h'.attached_eq.trans h.attached_eq, h'.claimed_eq.trans h.claimed_eq⟩

/-- A pass is over: the ring is dry, the tickets are served, and it is
closed if a stop was asked for. -/
structure Swept (fates : Fates) (d d' : Dispatcher) : Prop where
  calm : d'.Calm fates
  same : Same d d'
  dry : d'.ring.consumed = fates.reach
  served : d'.covered = d'.requested
  closed_eq : d'.closed = d.stopRequested

/-- A pass starts: the ring is closed if a stop was asked for. -/
theorem step_top (hc : d.Calm fates) (hphase : d.phase = .top) (hbusy : d.isIdle = false)
    (s : Shared H) :
    ∃ r, step h d s
        = some ({ d with ring := r, closed := d.stopRequested, phase := .draining false }, s)
      ∧ r.Tracks fates ∧ r.lent = false ∧ r.taken = true ∧ r.closed = d.stopRequested
      ∧ r.consumed = d.ring.consumed ∧ r.claimed = d.ring.claimed := by
  cases hclosed : d.closed with
  | true =>
      have hstop := hc.stopRequested hclosed
      refine ⟨d.ring, ?_, hc.tracks, hc.lent_eq, hc.taken_eq,
        (hc.closed_eq.trans hclosed).trans hstop.symm, rfl, rfl⟩
      simp [step, hphase, hbusy, hstop, hclosed]
  | false =>
      cases hstop : d.stopRequested with
      | true =>
          refine ⟨d.ring.close, ?_, hc.tracks.close, hc.lent_eq, hc.taken_eq, rfl, rfl, rfl⟩
          simp [step, hphase, hbusy, hstop, hclosed]
      | false =>
          refine ⟨d.ring, ?_, hc.tracks, hc.lent_eq, hc.taken_eq,
            hc.closed_eq.trans hclosed, rfl, rfl⟩
          simp [step, hphase, hbusy, hstop, hclosed]

/-- A whole pass, from the top to where the dispatcher has to decide. -/
theorem walk_pass (hp : h.Prompt) (hc : d.Calm fates) (hphase : d.phase = .top)
    (hbusy : d.isIdle = false) (s : Shared H) :
    ∃ n d' s' handled, n ≤ d.ring.backlog + 5 ∧ Walk h n (d, s) (d', s')
      ∧ d'.phase = .deciding handled ∧ Swept fates d d'
      ∧ (d.ring.consumed = fates.reach → handled = false) := by
  obtain ⟨r₀, hstep, ht₀, hl₀, htaken₀, hclosed₀, hconsumed₀, hclaimed₀⟩ :=
    step_top (h := h) hc hphase hbusy s
  obtain ⟨d₁, hd₁⟩ : ∃ d₁, d₁ = { d with
    ring := r₀, closed := d.stopRequested, phase := .draining false } := ⟨_, rfl⟩
  rw [← hd₁] at hstep
  have hbacklog : d₁.ring.backlog = d.ring.backlog := by
    rw [hd₁]
    show r₀.claimed - r₀.consumed = d.ring.claimed - d.ring.consumed
    rw [hconsumed₀, hclaimed₀]
  have hphase₁ : d₁.phase = .draining false := hd₁ ▸ rfl
  have ht₁ : d₁.ring.Tracks fates := hd₁ ▸ ht₀
  have hl₁ : d₁.ring.lent = false := hd₁ ▸ hl₀
  -- after the top the ring is drained, and then tickets are served
  obtain ⟨n₁, r, handled, s₁, hn₁, hdrain, hdrained, hhandled⟩ := walk_drain hp ht₁ hl₁ hphase₁ s
  obtain ⟨d₂, hd₂⟩ : ∃ d₂, d₂ = { d₁ with ring := r, phase := .checking handled } := ⟨_, rfl⟩
  rw [← hd₂] at hdrain
  have hcovered : d₂.covered ≤ d₂.requested := by
    rw [hd₂, hd₁]
    exact hc.covered_le
  have hcompleted : d₂.completed = d₂.covered := by
    rw [hd₂, hd₁]
    exact hc.completed_eq
  have hphase₂ : d₂.phase = .checking handled := hd₂ ▸ rfl
  obtain ⟨n₂, s₂, hn₂, hserve⟩ := walk_serve hp hphase₂ hcovered hcompleted s₁
  have hwalk := Walk.next (x := (d, s)) hstep (hdrain.trans hserve)
  rw [hd₂, hd₁] at hwalk
  rw [hd₁] at hdrained hhandled
  refine ⟨_, _, s₂, handled, by omega, hwalk, rfl, ?_, ?_⟩
  · exact {
      calm := {
        tracks := hdrained.tracks
        lent_eq := hdrained.lent_eq
        taken_eq := hdrained.taken_eq.trans htaken₀
        closed_eq := hdrained.closed_eq.trans hclosed₀
        stopRequested := id
        expired_eq := hc.expired_eq
        abandoned_eq := hc.abandoned_eq
        covered_le := Nat.le_refl _
        completed_eq := rfl }
      same := ⟨rfl, rfl, rfl, hdrained.claimed_eq.trans hclaimed₀⟩
      dry := hdrained.consumed_eq
      served := rfl
      closed_eq := rfl }
  · exact fun hreach => hhandled (hconsumed₀.trans hreach)

-- ============================================================= at rest

/-- What it takes to be idle, condition by condition. -/
theorem isIdle_iff : d.isIdle = true ↔ (d.closed = true ∨ d.stopRequested = false)
    ∧ d.ring.hasAvailable = false ∧ d.requested ≤ d.covered
    ∧ (d.closed = true → d.ring.isCaughtUp = false ∧ d.expired = false) := by
  unfold isIdle
  cases d.closed <;> simp [and_assoc]

/-- An idle dispatcher does nothing between passes. -/
theorem step_idle (hphase : d.phase = .top) (hidle : d.isIdle = true) (s : Shared H) :
    step h d s = none := by
  simp only [step, hphase, hidle, if_true]

theorem step_finished (hf : d.isFinished = true) (s : Shared H) : step h d s = none := by
  have hphase : d.phase = .finished := by simpa [isFinished] using hf
  simp only [step, hphase]

/-- A dispatcher that waits for producers, with nothing left to do. -/
structure Waits (fates : Fates) (d : Dispatcher) : Prop where
  phase_eq : d.phase = .top
  calm : d.Calm fates
  dry : d.ring.consumed = fates.reach
  served : d.completed = d.requested
  missing : d.stopRequested = true → d.ring.isCaughtUp = false

/-- A dispatcher that has finished and left nothing behind. -/
structure Gone (fates : Fates) (d : Dispatcher) : Prop where
  isFinished : d.isFinished = true
  abandoned_eq : d.abandoned = 0
  tracks : d.ring.Tracks fates
  isCaughtUp : d.ring.isCaughtUp = true

/-- A dispatcher that has come to rest. -/
structure Rested (fates : Fates) (d d' : Dispatcher) : Prop where
  same : Same d d'
  rest : Waits fates d' ∨ (d.stopRequested = true ∧ Gone fates d')

/-- A calm dispatcher that is idle waits for producers. -/
theorem Calm.waits (hc : d.Calm fates) (hphase : d.phase = .top) (hidle : d.isIdle = true) :
    Waits fates d := by
  obtain ⟨hclosed, hdry, hserved, hwait⟩ := isIdle_iff.1 hidle
  refine ⟨hphase, hc, (Ring.hasAvailable_eq_false_iff hc.tracks).1 hdry, ?_, ?_⟩
  · rw [hc.completed_eq]
    exact Nat.le_antisymm hc.covered_le hserved
  · intro hstop
    exact (hwait (hclosed.resolve_right (ne_true_of_eq_false · hstop))).1

theorem Waits.isIdle (hw : Waits fates d) (hclosed : d.closed = d.stopRequested) :
    d.isIdle = true := by
  refine isIdle_iff.2 ⟨?_, (Ring.hasAvailable_eq_false_iff hw.calm.tracks).2 hw.dry, ?_, ?_⟩
  · rw [hclosed]
    exact Bool.eq_false_or_eq_true _
  · exact Nat.le_of_eq (hw.served.symm.trans hw.calm.completed_eq)
  · intro hc
    exact ⟨hw.missing (hw.calm.stopRequested hc), hw.calm.expired_eq⟩

/-- From the end of a pass to the top of the next. -/
theorem walk_again {handled : Bool} (hphase : d.phase = .deciding handled)
    (hagain : (handled || !d.closed) = true ∨ (d.ring.isCaughtUp = false ∧ d.expired = false))
    (s : Shared H) : Walk h 1 (d, s) ({ d with phase := .top }, s) := by
  refine .one ?_
  simp only [step, hphase]
  split
  · rfl
  · next hgo =>
    rcases hagain with hagain | ⟨hmissing, hexpired⟩
    · exact absurd hagain hgo
    · simp [hmissing, hexpired]

/-- From the end of the last pass to the end. -/
theorem Swept.leave (hp : h.Prompt) (hd : Swept fates d d') (hphase : d'.phase = .deciding false)
    (hstop : d.stopRequested = true) (hcaught : d'.ring.isCaughtUp = true) (s : Shared H) :
    ∃ d'' s', Walk h 3 (d', s) (d'', s') ∧ Gone fates d'' ∧ Same d d'' := by
  have hclosed : d'.closed = true := hd.closed_eq.trans hstop
  obtain ⟨d₁, hd₁⟩ : ∃ d₁, d₁ = { d' with phase := .leaving } := ⟨_, rfl⟩
  obtain ⟨d₂, hd₂⟩ : ∃ d₂, d₂ = { d' with ring := d'.ring.close.untake, phase := .stopping } :=
    ⟨_, rfl⟩
  obtain ⟨d₃, hd₃⟩ : ∃ d₃, d₃ = { d' with ring := d'.ring.close.untake, phase := .finished } :=
    ⟨_, rfl⟩
  have hdecide : step h d' s = some (d₁, s) := by
    simp [step, hphase, hclosed, hcaught, hd₁]
  have hleave : step h d₁ s = some (d₂, s) := by
    simp only [step, hd₁, hd₂]
  obtain ⟨s', hstopped⟩ : ∃ s', step h d₂ s = some (d₃, s') := by
    simp only [step, hd₂]
    rw [hd₃]
    exact some_of_fst (afterStop_ended (hp.onShutdown _))
  refine ⟨d₃, s', .next hdecide (.next hleave (.one hstopped)), ?_, ?_⟩
  · rw [hd₃]
    exact ⟨rfl, hd.calm.abandoned_eq, hd.calm.tracks.close.untake, hcaught⟩
  · rw [hd₃]
    exact { hd.same with }

/-- With nothing missing the dispatcher finishes, after another pass if this
one has had events. -/
theorem Swept.finish (hp : h.Prompt) (hd : Swept fates d d') {handled : Bool}
    (hphase : d'.phase = .deciding handled) (hstop : d.stopRequested = true)
    (hcaught : d'.ring.isCaughtUp = true) (s : Shared H) :
    ∃ n d'' s', n ≤ 9 ∧ Walk h n (d', s) (d'', s') ∧ Gone fates d'' ∧ Same d d'' := by
  cases handled with
  | false =>
      obtain ⟨d₁, s₁, hleave, hgone, hsame⟩ := hd.leave hp hphase hstop hcaught s
      exact ⟨3, d₁, s₁, by omega, hleave, hgone, hsame⟩
  | true =>
      have hagain := walk_again (h := h) (d := d') hphase (.inl rfl) s
      obtain ⟨d₁, hd₁⟩ : ∃ d₁, d₁ = { d' with phase := .top } := ⟨_, rfl⟩
      rw [← hd₁] at hagain
      have hcalm₁ : d₁.Calm fates := by
        rw [hd₁]
        exact { hd.calm with }
      have hsame₁ : Same d d₁ := by
        rw [hd₁]
        exact { hd.same with }
      have hcaught₁ : d₁.ring.isCaughtUp = true := by rw [hd₁]; exact hcaught
      have hclosed₁ : d₁.closed = true := by
        rw [hd₁]
        exact hd.closed_eq.trans hstop
      have hdry₁ : d₁.ring.consumed = fates.reach := by rw [hd₁]; exact hd.dry
      have hbusy₁ : d₁.isIdle = false := by
        unfold Dispatcher.isIdle
        simp [hclosed₁, hcaught₁]
      -- the next pass has nothing to drain
      obtain ⟨n, d₂, s₂, handled, hn, hwalk, hphase₂, hswept₂, hhandled⟩ :=
        walk_pass hp hcalm₁ (hd₁ ▸ rfl) hbusy₁ s
      rw [hhandled hdry₁] at hphase₂
      have hbacklog : d₁.ring.backlog = 0 := by
        have hle : d₁.ring.claimed ≤ d₁.ring.consumed := of_decide_eq_true hcaught₁
        exact Nat.sub_eq_zero_of_le hle
      have hcaught₂ : d₂.ring.isCaughtUp = true := by
        unfold Ring.isCaughtUp at hcaught₁ ⊢
        rw [hswept₂.dry, hswept₂.same.claimed_eq, ← hdry₁]
        exact hcaught₁
      obtain ⟨d₃, s₃, hleave, hgone, hsame⟩ := hswept₂.leave hp hphase₂
        (hcalm₁.stopRequested hclosed₁) hcaught₂ s₂
      exact ⟨1 + (n + 3), d₃, s₃, by omega, hagain.trans (hwalk.trans hleave), hgone,
        hsame₁.trans hsame⟩

/-- Where something is missing, or nobody has asked to stop, the dispatcher
goes back to the top and waits there. -/
theorem Swept.wait (hd : Swept fates d d') {handled : Bool} (hphase : d'.phase = .deciding handled)
    (hwait : d.stopRequested = true → d'.ring.isCaughtUp = false) (s : Shared H) :
    ∃ d'', Walk h 1 (d', s) (d'', s) ∧ Waits fates d'' ∧ d''.isIdle = true ∧ Same d d'' := by
  have hagain : (handled || !d'.closed) = true
      ∨ (d'.ring.isCaughtUp = false ∧ d'.expired = false) := by
    rw [hd.closed_eq]
    cases hstop : d.stopRequested with
    | false => exact .inl (Bool.or_true handled)
    | true => exact .inr ⟨hwait hstop, hd.calm.expired_eq⟩
  obtain ⟨d'', hd''⟩ : ∃ d'', d'' = { d' with phase := .top } := ⟨_, rfl⟩
  have hwalk := walk_again (h := h) hphase hagain s
  have hwaits : Waits fates d'' := by
    rw [hd'']
    refine ⟨rfl, { hd.calm with }, hd.dry, hd.calm.completed_eq.trans hd.served, ?_⟩
    intro hstop
    exact hwait (hd.same.stopRequested_eq.symm.trans hstop)
  have hclosed : d''.closed = d''.stopRequested := by
    rw [hd'']
    exact hd.closed_eq.trans hd.same.stopRequested_eq.symm
  refine ⟨d'', hd'' ▸ hwalk, hwaits, hwaits.isIdle hclosed, ?_⟩
  rw [hd'']
  exact { hd.same with }

/-- A dispatcher between passes comes to rest. -/
theorem rested_settle (hp : h.Prompt) (hc : d.Calm fates) (hphase : d.phase = .top)
    (s : Shared H) : Rested fates d (d.settle h s).1 := by
  cases hidle : d.isIdle with
  | true =>
      rw [(Walk.rest (h := h) (d, s)).settle (Nat.zero_le _) (step_idle hphase hidle s)]
      exact ⟨.refl d, .inl (hc.waits hphase hidle)⟩
  | false =>
      obtain ⟨n, d₁, s₁, handled, hn, hpass, hphase₁, hswept, -⟩ :=
        walk_pass hp hc hphase hidle s
      by_cases hwait : d.stopRequested = true → d₁.ring.isCaughtUp = false
      · obtain ⟨d₂, hback, hwaits, hidle₂, hsame⟩ := hswept.wait (h := h) hphase₁ hwait s₁
        have henough : n + 1 ≤ d.enough := by
          unfold enough
          omega
        rw [(hpass.trans hback).settle henough (step_idle hwaits.phase_eq hidle₂ s₁)]
        exact ⟨hsame, .inl hwaits⟩
      · obtain ⟨hstop, hcaught⟩ : d.stopRequested = true ∧ d₁.ring.isCaughtUp = true := by
          simpa using hwait
        obtain ⟨m, d₂, s₂, hm, hfinish, hgone, hsame⟩ :=
          hswept.finish hp hphase₁ hstop hcaught s₁
        have henough : n + m ≤ d.enough := by
          unfold enough
          omega
        rw [(hpass.trans hfinish).settle henough (step_finished hgone.isFinished s₂)]
        exact ⟨hsame, .inr ⟨hstop, hgone⟩⟩

end Dispatcher

end LogPipeline
