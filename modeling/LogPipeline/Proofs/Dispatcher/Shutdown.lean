/-
Shutting a dispatcher down: its accounts are settled, and with a handler
whose calls all end the shutdown gets there.

# The measure

`Dispatcher.rank` bounds the steps that are left once a stop was asked
for and the deadline has passed, when no producer acts in between. A pass
is at most seven steps and one for each event; the pass that is under way
may be the last before the ring is closed, the next one drains it, and
one more finds nothing. What there is to drain is known from the backlog
until the ring is dry, and a pass over a dry ring is the last (`passCost`).
Every step lowers the rank (`rank_step`), so `settle`, which has steps
for the whole backlog and 32 more, comes to the end (`finished_run`).

# The theorem

`Service.settled` reads the accounts off the invariant at the end of a
run, and says that `Dispatcher.shutdown` is such a run.
-/
import LogPipeline.Proofs.Dispatcher.Accounts

namespace LogPipeline

/-- Every call of the handler ends: it returns, fails or panics. -/
structure Handler.Prompt {H : Type} (h : Handler H) : Prop where
  onEvent : ∀ slot endOfBatch s, (h.onEvent slot endOfBatch s).outcome.isSome = true
  onFlush : ∀ s, (h.onFlush s).outcome.isSome = true
  onShutdown : ∀ s, (h.onShutdown s).outcome.isSome = true

theorem Handler.Prompt.noted {H : Type} {h : Handler H} (hp : h.Prompt) : h.noted.Prompt :=
  ⟨fun slot endOfBatch n => hp.onEvent slot endOfBatch n.state, fun n => hp.onFlush n.state,
    fun n => hp.onShutdown n.state⟩

/-- There is something to drain if an event is handed out. -/
theorem Ring.hasAvailable_of_tryNext {r r' : Ring} {e : Ring.Lent}
    (hn : r.tryNext = (some e, r')) : r.hasAvailable = true := by
  cases ha : r.hasAvailable with
  | true => rfl
  | false =>
      have hres : r.isResolved r.consumed = false := ha
      have hskip : r.skipVoid r.backlog = r := by
        cases r.backlog with
        | zero => rfl
        | succ fuel =>
            rw [Ring.skipVoid, hres]
            rfl
      unfold Ring.tryNext Ring.hasEventAt at hn
      simp only [hskip, hres, Bool.false_and, Bool.false_eq_true, if_false] at hn
      cases hn

namespace Dispatcher

variable {H : Type} {h : Handler H} {d d' : Dispatcher} {s s' : Shared H}

-- ================================================== calls that all end

theorem afterEvent_ended {x : Call H} (hx : x.outcome.isSome = true) :
    (afterEvent x d s).1 = { d with phase := .draining true, ring := d.ring.release } := by
  obtain ⟨o, ho⟩ := Option.isSome_iff_exists.1 hx
  unfold afterEvent
  rw [ho]

theorem afterFlush_ended {handled : Bool} {ticket : Nat} {x : Call H}
    (hx : x.outcome.isSome = true) :
    (afterFlush handled ticket x d s).1 = { d with phase := .storing handled ticket } := by
  obtain ⟨o, ho⟩ := Option.isSome_iff_exists.1 hx
  unfold afterFlush
  rw [ho]

theorem afterStop_ended {x : Call H} (hx : x.outcome.isSome = true) :
    (afterStop x d s).1 = { d with phase := .finished } := by
  obtain ⟨o, ho⟩ := Option.isSome_iff_exists.1 hx
  unfold afterStop
  rw [ho]

-- ========================================================== the measure

/-- The steps from the top of a pass on. -/
def passCost (closed : Bool) (r : Ring) : Nat :=
  if closed && !r.hasAvailable then 8 else r.backlog + 14

/-- The steps from the end of a pass on. -/
def decideCost (handled closed : Bool) (r : Ring) : Nat :=
  if !handled && closed then 3 else passCost closed r + 1

/-- The steps from within the draining on. -/
def drainCost (handled closed : Bool) (r : Ring) : Nat :=
  if closed && !r.hasAvailable then decideCost handled closed r + 4
  else if closed then r.backlog + 13 else r.backlog + 19

/-- The steps that are left at a point of a pass. -/
def phaseCost (closed : Bool) (r : Ring) : Phase → Nat
  | .top => passCost closed r
  | .draining handled => drainCost handled closed r
  | .checking handled => decideCost handled closed r + 3
  | .flushing handled _ | .heldInFlush handled _ => decideCost handled closed r + 2
  | .storing handled _ => decideCost handled closed r + 1
  | .deciding handled => decideCost handled closed r
  | .leaving => 2
  | .stopping | .heldInStop => 1
  | .handling | .finished => 0

/-- A bound on the steps that are left when the dispatcher is to stop. -/
def rank (d : Dispatcher) : Nat := phaseCost d.closed d.ring d.phase

section

variable {handled closed : Bool} {r r' : Ring}

theorem passCost_le : passCost closed r ≤ r.backlog + 14 := by
  unfold passCost
  split <;> omega

theorem decideCost_le : decideCost handled closed r ≤ r.backlog + 15 := by
  have := @passCost_le closed r
  unfold decideCost
  split <;> omega

/-- On a dry ring the pass after this one is the last. -/
theorem decideCost_dry (hd : r.hasAvailable = false) :
    decideCost handled true r ≤ 9 := by
  unfold decideCost passCost
  rw [hd]
  cases handled <;> simp

/-- A pass begins on a ring that is closed by then. -/
theorem drainCost_lt_passCost : drainCost false true r < passCost closed r := by
  unfold drainCost passCost
  cases hd : r.hasAvailable with
  | false =>
      have : decideCost false true r = 3 := rfl
      cases closed <;> simp [this]
  | true => cases closed <;> simp

/-- Draining ends with a dry ring. -/
theorem decideCost_lt_drainCost (hd : r'.hasAvailable = false)
    (hb : r'.backlog ≤ r.backlog) :
    decideCost handled closed r' + 3 < drainCost handled closed r := by
  unfold drainCost
  cases closed with
  | false =>
      have := @decideCost_le handled false r'
      simp only [Bool.false_and, Bool.false_eq_true, if_false]
      omega
  | true =>
      have hdry := @decideCost_dry handled r' hd
      cases hd' : r.hasAvailable with
      | false =>
          have hsame : decideCost handled true r' = decideCost handled true r := by
            unfold decideCost passCost
            rw [hd, hd']
            rfl
          simp [hsame]
      | true =>
          simp only [Bool.not_true, Bool.and_false, Bool.false_eq_true, if_false, if_true]
          omega

/-- An event that is handled is off the backlog. -/
theorem drainCost_lt (ha : r.hasAvailable = true) (hb : r'.backlog < r.backlog) :
    drainCost true closed r' < drainCost handled closed r := by
  unfold drainCost
  rw [ha]
  cases closed with
  | false =>
      simp only [Bool.false_and, Bool.false_eq_true, if_false]
      omega
  | true =>
      simp only [Bool.not_true, Bool.and_false, Bool.false_eq_true, if_false, if_true]
      split
      · next hd =>
        have hd' : r'.hasAvailable = false := by simpa using hd
        have := @decideCost_dry true r' hd'
        omega
      · omega

end

/-- The steps that are granted are as many as are needed. -/
theorem rank_le_enough (d : Dispatcher) : d.rank ≤ d.enough := by
  have hpass := @passCost_le d.closed d.ring
  have hdecide := fun handled => @decideCost_le handled d.closed d.ring
  unfold rank phaseCost enough
  cases d.phase with
  | top =>
      dsimp only
      omega
  | draining handled =>
      have := hdecide handled
      dsimp only [drainCost]
      split
      · omega
      · split <;> omega
  | checking handled | flushing handled _ | heldInFlush handled _ | storing handled _
    | deciding handled =>
      have := hdecide handled
      dsimp only
      omega
  | leaving | stopping | heldInStop | handling | finished =>
      dsimp only
      omega

-- ============================================================ progress

/-- A dispatcher that does not rest makes a step. -/
theorem exists_step (h : Handler H) (s : Shared H) (hheld : d.phase.isHeld = false)
    (hunfinished : d.isFinished = false) (hbusy : d.phase = .top → d.isIdle = false) :
    ∃ o, step h d s = some o := by
  cases hphase : d.phase with
  | top =>
      simp only [step, hphase, hbusy hphase, Bool.false_eq_true, if_false]
      split <;> exact ⟨_, rfl⟩
  | draining handled =>
      simp only [step, hphase]
      split <;> exact ⟨_, rfl⟩
  | checking handled =>
      simp only [step, hphase]
      split <;> exact ⟨_, rfl⟩
  | deciding handled =>
      simp only [step, hphase]
      split
      · exact ⟨_, rfl⟩
      · split
        · exact ⟨_, rfl⟩
        · split <;> exact ⟨_, rfl⟩
  | flushing handled ticket | storing handled ticket | leaving | stopping =>
      simp only [step, hphase]
      exact ⟨_, rfl⟩
  | handling | heldInFlush handled ticket | heldInStop =>
      rw [hphase] at hheld
      cases hheld
  | finished =>
      unfold isFinished at hunfinished
      rw [hphase] at hunfinished
      cases hunfinished

/-- A dispatcher whose deadline has passed does not wait. -/
theorem isIdle_of_expired (hstop : d.stopRequested = true) (hexpired : d.expired = true) :
    d.isIdle = false := by
  unfold isIdle
  rw [hstop, hexpired]
  cases d.closed <;> simp

/-- A step of a dispatcher whose deadline has passed lowers the rank. -/
theorem Stepped.rank_lt {fates : Fates} (hs : Stepped h d s d' s') (hp : h.Prompt)
    (ht : d.ring.Tracks fates) (hl : d.ring.lent = false) (hstop : d.stopRequested = true)
    (hexpired : d.expired = true) (hheld : d.phase.isHeld = false) : d'.rank < d.rank := by
  unfold rank
  cases hs with
  | close hphase =>
      rw [hphase]
      exact drainCost_lt_passCost
  | drain hphase hbusy hstay =>
      have hclosed : d.closed = true := by
        rw [hstop, Bool.true_and, Bool.not_eq_false'] at hstay
        exact hstay
      rw [hphase]
      show drainCost false d.closed d.ring < passCost d.closed d.ring
      rw [hclosed]
      exact drainCost_lt_passCost
  | dry hphase hnext =>
      -- nothing to hand out: the ring is dry now
      obtain ⟨hpass, hreach⟩ := Ring.tryNext_none ht hnext
      have hdry : Ring.hasAvailable _ = false := Bool.eq_false_iff.2 fun hmore => by
        have hres := hpass.tracks.sound _ hmore
        rw [hreach, Fates.not_resolvedAt_reach] at hres
        cases hres
      rw [hphase]
      apply decideCost_lt_drainCost hdry
      have hle := hpass.le
      have hclaimed := hpass.claimed_eq
      unfold Ring.backlog
      omega
  | event hphase hnext hafter =>
      -- an event is handed out, and the handler is done with it at once
      obtain ⟨hpass, -, -, v, hv, -⟩ := Ring.tryNext_some ht hl hnext
      have hd : d' = _ := (congrArg Prod.fst hafter).symm
      rw [afterEvent_ended (hp.onEvent _ _ _)] at hd
      have hlt := Fates.lt_of_getElem? hv
      rw [hpass.tracks.length_eq] at hlt
      have hle := hpass.le
      have hclaimed := hpass.claimed_eq
      subst hd
      rw [hphase]
      apply drainCost_lt (Ring.hasAvailable_of_tryNext hnext)
      unfold Ring.backlog Ring.release
      dsimp only
      omega
  | due hphase | store hphase =>
      rw [hphase]
      exact Nat.lt_succ_self _
  | undue hphase =>
      rw [hphase]
      exact Nat.lt_add_of_pos_right (Nat.succ_pos 2)
  | flush hphase hafter =>
      have hd : d' = _ := (congrArg Prod.fst hafter).symm
      rw [afterFlush_ended (hp.onFlush _)] at hd
      subst hd
      rw [hphase]
      exact Nat.lt_succ_self _
  | @again handled hphase hmore =>
      have hcost : decideCost handled d.closed d.ring = passCost d.closed d.ring + 1 := by
        unfold decideCost
        rw [if_neg]
        intro hlast
        rw [Bool.and_eq_true, Bool.not_eq_true'] at hlast
        rw [(hmore hlast.1 hlast.2).2] at hexpired
        cases hexpired
      rw [hphase]
      show passCost d.closed d.ring < decideCost handled d.closed d.ring
      rw [hcost]
      exact Nat.lt_succ_self _
  | leave hphase hclosed | giveUp hphase hclosed =>
      rw [hphase, hclosed]
      exact Nat.lt_succ_self 2
  | depart hphase =>
      rw [hphase]
      exact Nat.lt_succ_self 1
  | stop hphase hafter =>
      have hd : d' = _ := (congrArg Prod.fst hafter).symm
      rw [afterStop_ended (hp.onShutdown _)] at hd
      subst hd
      rw [hphase]
      exact Nat.lt_succ_self 0
  | eventOn hphase | flushOn hphase | stopOn hphase =>
      rw [hphase] at hheld
      cases hheld

/-- A dispatcher that is to stop makes a step, and the step lowers the rank. -/
theorem rank_step {fates : Fates} (hp : h.Prompt) (ht : d.ring.Tracks fates)
    (hl : d.ring.lent = false) (hstop : d.stopRequested = true) (hexpired : d.expired = true)
    (hheld : d.phase.isHeld = false) (hunfinished : d.isFinished = false) (s : Shared H) :
    ∃ o, step h d s = some o ∧ o.1.rank < d.rank := by
  obtain ⟨o, ho⟩ := exists_step h s hheld hunfinished fun _ => isIdle_of_expired hstop hexpired
  exact ⟨o, ho, (stepped_of_step ho).rank_lt hp ht hl hstop hexpired hheld⟩

/-- A handler whose calls all end holds nothing up. Nor does a step take
back that a stop was asked for, or that the deadline has passed. -/
theorem prompt_step (hp : h.Prompt) (hheld : d.phase.isHeld = false)
    (hs : step h d s = some (d', s')) :
    d'.phase.isHeld = false ∧ d'.stopRequested = d.stopRequested ∧ d'.expired = d.expired := by
  cases stepped_of_step hs with
  | event _ _ hafter =>
      have hd : d' = _ := (congrArg Prod.fst hafter).symm
      rw [afterEvent_ended (hp.onEvent _ _ _)] at hd
      rw [hd]
      exact ⟨rfl, rfl, rfl⟩
  | flush _ hafter =>
      have hd : d' = _ := (congrArg Prod.fst hafter).symm
      rw [afterFlush_ended (hp.onFlush _)] at hd
      rw [hd]
      exact ⟨rfl, rfl, rfl⟩
  | stop _ hafter =>
      have hd : d' = _ := (congrArg Prod.fst hafter).symm
      rw [afterStop_ended (hp.onShutdown _)] at hd
      rw [hd]
      exact ⟨rfl, rfl, rfl⟩
  | eventOn hphase | flushOn hphase | stopOn hphase =>
      rw [hphase] at hheld
      cases hheld
  | _ => exact ⟨rfl, rfl, rfl⟩

end Dispatcher

namespace Service

variable {H : Type}

-- ============================================================ settling

theorem run_cons (h : Handler H) (op : ServiceOp) (rest : List ServiceOp) (sv : Service H) :
    sv.run h (op :: rest) = (sv.step h op).run h rest := rfl

theorem run_append (h : Handler H) (as bs : List ServiceOp) (sv : Service H) :
    sv.run h (as ++ bs) = (sv.run h as).run h bs := List.foldl_append

/-- Where the dispatcher rests, more steps change nothing. -/
theorem run_rest {h : Handler H} {sv : Service H}
    (hrest : sv.dispatcher.step h sv.shared = none) (n : Nat) :
    sv.run h (List.replicate n .step) = sv := by
  have hstep : sv.step h .step = sv := by
    simp only [step, hrest]
  induction n with
  | zero => rfl
  | succ n ih =>
      show (sv.step h .step).run h (List.replicate n .step) = sv
      rw [hstep, ih]

/-- Settling is a run of steps. -/
theorem settleFor_run (h : Handler H) (n : Nat) (sv : Service H) :
    Dispatcher.settleFor h n sv.dispatcher sv.shared
      = ((sv.run h (List.replicate n .step)).dispatcher,
        (sv.run h (List.replicate n .step)).shared) := by
  induction n generalizing sv with
  | zero => rfl
  | succ n ih =>
      unfold Dispatcher.settleFor
      cases hs : sv.dispatcher.step h sv.shared with
      | none =>
          rw [run_rest hs]
      | some o =>
          have hstep : sv.step h .step = { sv with dispatcher := o.1, shared := o.2 } := by
            simp only [step, hs]
          show Dispatcher.settleFor h n o.1 o.2
            = (((sv.step h .step).run h (List.replicate n .step)).dispatcher,
              ((sv.step h .step).run h (List.replicate n .step)).shared)
          rw [hstep]
          exact ih { sv with dispatcher := o.1, shared := o.2 }

/-- To settle is to run for that many steps. -/
theorem settle_run (h : Handler H) (sv : Service H) :
    Dispatcher.settle h sv.dispatcher sv.shared
      = ((sv.run h (List.replicate sv.dispatcher.enough .step)).dispatcher,
        (sv.run h (List.replicate sv.dispatcher.enough .step)).shared) :=
  settleFor_run h _ sv

/-- Ask the dispatcher to stop, and let it work until it rests. -/
def askOps (sv : Service H) : List ServiceOp :=
  .requestStop :: List.replicate sv.dispatcher.requestStop.enough .step

/-- Let the deadline pass, and let the dispatcher work until it rests. -/
def expireOps (sv : Service H) : List ServiceOp :=
  .expire :: List.replicate sv.dispatcher.expire.enough .step

/-- What a shutdown does first is part of a run. -/
theorem run_askOps (h : Handler H) (sv : Service H) :
    Dispatcher.settle h sv.dispatcher.requestStop sv.shared
      = ((sv.run h sv.askOps).dispatcher, (sv.run h sv.askOps).shared) := by
  rw [askOps, run_cons]
  exact settle_run h (sv.step h .requestStop)

theorem run_expireOps (h : Handler H) (sv : Service H) :
    Dispatcher.settle h sv.dispatcher.expire sv.shared
      = ((sv.run h sv.expireOps).dispatcher, (sv.run h sv.expireOps).shared) := by
  rw [expireOps, run_cons]
  exact settle_run h (sv.step h .expire)

/-- What shutting the dispatcher down does, operation by operation. -/
def stopOps (h : Handler H) (sv : Service H) : List ServiceOp :=
  if (sv.run h sv.askOps).dispatcher.isFinished then sv.askOps
  else sv.askOps ++ (sv.run h sv.askOps).expireOps

/-- Shutting down is a run. -/
theorem shutdown_run (h : Handler H) (timeout : Nat) {sv : Service H}
    (ha : sv.dispatcher.attached = true) :
    ∃ sv', sv' = sv.run h (sv.stopOps h)
      ∧ Dispatcher.shutdown h timeout sv.dispatcher sv.shared
        = ((sv'.dispatcher.stopResult timeout sv'.shared).1, sv'.dispatcher,
          (sv'.dispatcher.stopResult timeout sv'.shared).2) := by
  obtain ⟨sv₁, hsv₁⟩ : ∃ sv₁, sv₁ = sv.run h sv.askOps := ⟨_, rfl⟩
  unfold stopOps Dispatcher.shutdown
  rw [if_pos ha, run_askOps, ← hsv₁]
  dsimp only
  by_cases hf : sv₁.dispatcher.isFinished = true
  · rw [if_pos hf, if_pos hf]
    exact ⟨_, rfl, by rw [← hsv₁]⟩
  · rw [if_neg hf, if_neg hf, run_expireOps]
    exact ⟨_, rfl, by rw [run_append, ← hsv₁]⟩

variable {m₀ : Metrics} {l₀ : StatusLog} {sv : Service (Noted H)} {hh : Handler H}

/-- With a handler whose calls all end, nothing is ever held up, and a
stop that was asked for stays asked for. -/
theorem prompt_run (hp : hh.Prompt) (ops : List ServiceOp) {sv : Service H}
    (hheld : sv.phase.isHeld = false) :
    (sv.run hh ops).phase.isHeld = false
      ∧ (sv.dispatcher.stopRequested = true →
        (sv.run hh ops).dispatcher.stopRequested = true) := by
  induction ops generalizing sv with
  | nil => exact ⟨hheld, id⟩
  | cons op rest ih =>
      have hstep : (sv.step hh op).phase.isHeld = false
          ∧ (sv.dispatcher.stopRequested = true →
            (sv.step hh op).dispatcher.stopRequested = true) := by
        cases op with
        | arrive =>
            simp only [step]
            split <;> exact ⟨hheld, id⟩
        | draw =>
            simp only [step]
            split <;> exact ⟨hheld, id⟩
        | requestStop => exact ⟨hheld, fun _ => rfl⟩
        | step =>
            simp only [step]
            split
            · exact ⟨hheld, id⟩
            · next d s hs =>
              obtain ⟨hheld', hstop, -⟩ := Dispatcher.prompt_step hp hheld hs
              exact ⟨hheld', hstop.trans⟩
        | _ => exact ⟨hheld, id⟩
      obtain ⟨hrest, hstop⟩ := ih hstep.1
      exact ⟨hrest, fun hs => hstop (hstep.2 hs)⟩

/-- Where the handler is not held up, no event is lent. -/
theorem Inv.not_lent (h : sv.Inv m₀ l₀) (hheld : sv.phase.isHeld = false) :
    sv.ring.lent = false := by
  rw [h.lent_eq]
  cases hphase : sv.phase with
  | handling =>
      rw [hphase] at hheld
      cases hheld
  | _ => rfl

/-- Steps enough bring a dispatcher that is to stop to its end. -/
theorem finished_run (hp : hh.Prompt) (h : sv.Inv m₀ l₀) (hheld : sv.phase.isHeld = false)
    (hstop : sv.dispatcher.stopRequested = true) (hexpired : sv.dispatcher.expired = true)
    {n : Nat} (hn : sv.dispatcher.rank ≤ n) :
    (sv.run hh.noted (List.replicate n .step)).dispatcher.isFinished = true := by
  induction n generalizing sv with
  | zero =>
      cases hf : sv.dispatcher.isFinished with
      | true => exact hf
      | false =>
          have hlent := h.not_lent hheld
          obtain ⟨o, -, hlt⟩ := Dispatcher.rank_step hp.noted h.tracks hlent hstop hexpired
            hheld hf sv.shared
          omega
  | succ n ih =>
      cases hf : sv.dispatcher.isFinished with
      | true =>
          have hrest : sv.dispatcher.step hh.noted sv.shared = none := by
            have hphase : sv.dispatcher.phase = .finished := by
              simpa [Dispatcher.isFinished] using hf
            simp only [Dispatcher.step, hphase]
          rw [run_rest hrest]
          exact hf
      | false =>
          have hlent := h.not_lent hheld
          obtain ⟨o, hs, hlt⟩ := Dispatcher.rank_step hp.noted h.tracks hlent hstop hexpired
            hheld hf sv.shared
          obtain ⟨hheld', hstop', hexpired'⟩ := Dispatcher.prompt_step hp.noted hheld hs
          have hstep : sv.step hh.noted .step = { sv with dispatcher := o.1, shared := o.2 } := by
            simp only [step, hs]
          show ((sv.step hh.noted .step).run hh.noted
            (List.replicate n .step)).dispatcher.isFinished = true
          rw [hstep]
          refine ih (inv_dispatch hh h hs) hheld' (hstop'.trans hstop)
            (hexpired'.trans hexpired) ?_
          exact Nat.le_of_lt_succ (Nat.lt_of_lt_of_le hlt hn)

/-- A shutdown comes to the end, whatever the dispatcher is at. -/
theorem finished_stopOps (hp : hh.Prompt) (h : sv.Inv m₀ l₀) (hheld : sv.phase.isHeld = false) :
    (sv.run hh.noted (sv.plain.stopOps hh)).dispatcher.isFinished = true := by
  -- the service after the first half, and what is known of it
  obtain ⟨sv₁, hsv₁⟩ : ∃ sv₁, sv₁ = sv.run hh.noted sv.plain.askOps := ⟨_, rfl⟩
  have h₁ : sv₁.Inv m₀ l₀ := hsv₁ ▸ inv_run hh sv.plain.askOps h
  have hheld₁ : sv₁.phase.isHeld = false := by
    rw [hsv₁]
    exact (prompt_run hp.noted _ hheld).1
  have hasked : (sv.step hh.noted .requestStop).phase.isHeld = false := hheld
  have hstop₁ : sv₁.dispatcher.stopRequested = true := by
    rw [hsv₁, askOps, run_cons]
    exact (prompt_run hp.noted _ hasked).2 rfl
  have hplain : sv.plain.run hh sv.plain.askOps = sv₁.plain := by
    rw [hsv₁, plain_run]
  unfold stopOps
  rw [hplain]
  by_cases hf : sv₁.dispatcher.isFinished = true
  · rw [show sv₁.plain.dispatcher.isFinished = true from hf, if_pos rfl, ← hsv₁]
    exact hf
  · rw [show sv₁.plain.dispatcher.isFinished = false from Bool.eq_false_iff.2 hf,
      if_neg Bool.false_ne_true, run_append, ← hsv₁, expireOps, run_cons]
    exact finished_run hp (inv_step hh h₁ .expire) hheld₁ hstop₁ rfl
      (Dispatcher.rank_le_enough _)

-- ======================================================= what it gives

/-- The accounts of a service that has come to its end. -/
structure Settled (s₀ : Shared H) (sv : Service (Noted H)) : Prop where
  /-- The handler was shown every event up to where the dispatcher stopped,
  once each and in the order of their sequences. -/
  given : shownEvents sv.calls = (sv.fates.eventsBelow sv.ring.consumed).map Prod.snd
  told : Told sv.calls
  resolved : ∀ s < sv.ring.consumed, sv.fates.resolvedAt s = true
  delivered_eq : sv.shared.metrics.delivered
    = s₀.metrics.delivered + sv.calls.countP HandlerCall.delivered
  failures_eq : sv.shared.metrics.failures
    = s₀.metrics.failures + sv.calls.countP HandlerCall.failed
  endOfBatch_eq : sv.shared.metrics.endOfBatch
    = s₀.metrics.endOfBatch + sv.calls.countP (·.task.endsBatch)
  status_eq : sv.shared.status
    = s₀.status.logAll (bookedEntries sv.dispatcher.abandoned sv.calls)
  /-- Of every call that went wrong the dispatcher tells one error, and of
  the others nothing. -/
  complaints : ∀ c ∈ sv.calls, c.complaint.length = (if c.wentWrong then 1 else 0)
    ∧ ∀ e ∈ c.complaint, e.level = .error ∧ e.component = Dispatcher.component
  /-- The handler was shut down once, after everything else. -/
  shutDown : ∃ before reports o, sv.calls = before ++ [⟨.shutdown, reports, some o⟩]
    ∧ AllOver before
  claimed_eq : sv.ring.claimed = (shownEvents sv.calls).length
    + sv.fates.droppedBelow sv.ring.consumed + sv.dispatcher.abandoned + sv.late
  /-- No event was published under a sequence that was taken late. -/
  mute : ∀ s, sv.ring.consumed + sv.dispatcher.abandoned ≤ s → sv.traffic.MuteAt s

/-- A service whose dispatcher has finished has settled its accounts. -/
theorem settled_of_finished {s₀ : Shared H} (h : sv.Inv s₀.metrics s₀.status)
    (hf : sv.dispatcher.isFinished = true) : sv.Settled s₀ := by
  have hphase : sv.dispatcher.phase = .finished := by
    simpa [Dispatcher.isFinished] using hf
  obtain ⟨hlent, ⟨before, reports, o, hover, hcalls⟩, -⟩ := h.inPhase hphase
  have hgone : sv.phase.isGone = true := congrArg Phase.isGone hphase
  have hgiven := h.given
  rw [Ring.frontier_of_not_lent hlent] at hgiven
  have hmetrics := h.booked.metrics_eq
  exact {
    given := hgiven
    told := h.told
    resolved := h.tracks.released
    delivered_eq := congrArg Metrics.delivered hmetrics
    failures_eq := congrArg Metrics.failures hmetrics
    endOfBatch_eq := congrArg Metrics.endOfBatch hmetrics
    status_eq := h.booked.status_eq
    complaints := fun c _ => c.complaint_spec
    shutDown := ⟨before, reports, o, hcalls, hover⟩
    claimed_eq := by
      rw [(h.gone hgone).2, hgiven, List.length_map]
      rw [Fates.length_eventsBelow h.tracks.released]
    mute := h.mute hgone }

/-- A shutdown was clean if it left nothing behind. -/
theorem stopResult_of_finished {d : Dispatcher} {s : Shared H} (timeout : Nat)
    (hf : d.isFinished = true) :
    d.stopResult timeout s = (d.isClean, s) := if_pos hf

/-- Whatever the order of steps, and however the calls of the handler end,
a dispatcher that has finished has its accounts settled, and tells a
clean stop if it left nothing behind. With a handler whose calls all end,
`shutdown` finishes it, from wherever it stands. -/
theorem settled (h : Handler H) (size : Nat) (s₀ : Shared H) (ops : List ServiceOp) :
    let sv := (start size s₀.noted).run h.noted ops
    sv.plain = (start size s₀).run h ops
      ∧ (sv.dispatcher.isFinished = true → sv.Settled s₀
          ∧ ∀ timeout, (sv.dispatcher.stopResult timeout sv.shared).1 = true
              ↔ sv.dispatcher.abandoned = 0)
      ∧ ((∀ op ∈ ops, op ≠ .draw) → sv.late = 0)
      ∧ (h.Prompt → sv.dispatcher.attached = true → ∀ timeout, ∃ more,
          let r := Dispatcher.shutdown h timeout sv.dispatcher sv.shared.plain
          let sv' := (start size s₀.noted).run h.noted (ops ++ more)
          r.2.1 = sv'.dispatcher ∧ r.2.2 = sv'.shared.plain ∧ sv'.Settled s₀
            ∧ (r.1 = true ↔ r.2.1.abandoned = 0)) := by
  intro sv
  have hinv : sv.Inv s₀.metrics s₀.status := inv_run h ops (inv_start size s₀)
  have hclean : ∀ d : Dispatcher, d.isClean = true ↔ d.abandoned = 0 := fun d => beq_iff_eq
  refine ⟨plain_run h ops _, fun hf => ⟨settled_of_finished hinv hf, fun timeout => ?_⟩,
    fun hops => late_run h.noted ops hops _, fun hp ha timeout => ?_⟩
  · rw [stopResult_of_finished timeout hf]
    exact hclean _
  · refine ⟨sv.plain.stopOps h, ?_⟩
    have hheld : sv.phase.isHeld = false := (prompt_run hp.noted ops rfl).1
    obtain ⟨sv', hsv'⟩ : ∃ sv', sv' = sv.run h.noted (sv.plain.stopOps h) := ⟨_, rfl⟩
    have hinv' : sv'.Inv s₀.metrics s₀.status := hsv' ▸ inv_run h (sv.plain.stopOps h) hinv
    have hf' : sv'.dispatcher.isFinished = true := hsv' ▸ finished_stopOps hp hinv hheld
    obtain ⟨end', hend, hshutdown⟩ :=
      shutdown_run h timeout (show sv.plain.dispatcher.attached = true from ha)
    rw [← plain_run, ← hsv'] at hend
    -- the shutdown is a run too, and ends where that does
    have hr : Dispatcher.shutdown h timeout sv.dispatcher sv.shared.plain
        = (sv'.dispatcher.isClean, sv'.dispatcher, sv'.shared.plain) := by
      rw [show Dispatcher.shutdown h timeout sv.dispatcher sv.shared.plain = _ from hshutdown,
        hend, stopResult_of_finished timeout (show sv'.plain.dispatcher.isFinished = true from hf')]
      rfl
    have hrun : (start size s₀.noted).run h.noted (ops ++ sv.plain.stopOps h) = sv' := by
      rw [run_append, hsv']
    rw [hr, hrun]
    exact ⟨rfl, rfl, settled_of_finished hinv' hf', hclean _⟩

end Service

end LogPipeline
