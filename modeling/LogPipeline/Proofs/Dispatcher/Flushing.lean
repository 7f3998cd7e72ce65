/-
Flushes along runs. A run is cut where somebody asks for a flush, at any
point; what holds of the ticket from then on is read off what turns keep.

That the ticket is flushed at all needs a handler whose calls end and a
dispatcher that goes on. Then `delay` bounds the steps until it is, given
how many sequences are taken in the end: the dispatcher does not count
tickets before its ring is dry, so it may have to handle all of these
first, and before that finish the flush it is in. Every step lowers the
bound (`Stepped.delay_lt`), and nobody else raises it.
-/
import LogPipeline.Proofs.Dispatcher.Tickets

namespace LogPipeline

/-- Whether the operation lets the dispatcher work. -/
def ServiceOp.isStep : ServiceOp → Bool
  | step => true
  | _ => false

/-- Producers take sequences, and give none back. -/
theorem Traffic.length_produce (t : Traffic) (op : ProducerOp) :
    t.fates.length ≤ (t.produce op).fates.length := by
  cases op with
  | reserve =>
      simp only [produce]
      split
      · exact Nat.le_refl _
      · exact List.length_append ▸ Nat.le_add_right _ _
  | claim =>
      simp only [produce]
      split
      · exact List.length_append ▸ Nat.le_add_right _ _
      · exact Nat.le_refl _
  | confirm s =>
      simp only [produce]
      split
      · unfold confirm
        split
        · exact Nat.le_of_eq List.length_set.symm
        · exact Nat.le_of_eq List.length_set.symm
        · exact Nat.le_refl _
      · exact Nat.le_refl _
  | forsake s =>
      simp only [produce]
      split
      · split
        · exact Nat.le_of_eq List.length_set.symm
        · exact Nat.le_refl _
      · exact Nat.le_refl _
  | publish s v | abandon s =>
      simp only [produce]
      split
      · exact Nat.le_of_eq List.length_set.symm
      · exact Nat.le_refl _

namespace Dispatcher

variable {H : Type} {h : Handler H} {d d' : Dispatcher} {s s' : Shared H}
  {calls calls' : List HandlerCall} {t n claimed : Nat}

-- ========================================================== operations

/-- The dispatcher counts tickets, and some are due: it is going to flush. -/
def findsDue (d : Dispatcher) : Bool := d.phase.isCounting && decide (d.covered < d.requested)

/-- What an operation means to tickets: a turn, or nothing but that more
of them are given out. -/
inductive Moved (d : Dispatcher) (calls : List HandlerCall) :
    ServiceOp → Dispatcher → List HandlerCall → Prop
  | turn {d' : Dispatcher} {calls' : List HandlerCall} (h : Turn d calls d' calls') :
      Moved d calls .step d' calls'
  | aside {op : ServiceOp} {d' : Dispatcher}
      (hearly : op.isStep = true → d.phase.isCounting = false) (hphase : d'.phase = d.phase)
      (hclosed : d'.closed = d.closed) (hrequested : d.requested ≤ d'.requested)
      (hcovered : d'.covered = d.covered) (hcompleted : d'.completed = d.completed) :
      Moved d calls op d' calls

namespace Moved

variable {op : ServiceOp}

theorem keeps_tasks (h : Moved d calls op d' calls') :
    calls.map (·.task) <+: calls'.map (·.task) := by
  cases h with
  | turn h => exact h.grown.keeps_tasks
  | aside => exact List.prefix_rfl

/-- Tickets stay counted: flushed as far as covered, and covered as far as
given out. -/
theorem counted (h : Moved d calls op d' calls') (hc : d.Counted) : d'.Counted := by
  cases h with
  | turn h => exact h.counted hc
  | aside _ hphase _ hrequested hcovered hcompleted =>
      refine ⟨?_, ?_, fun u hu => ?_⟩
      · rw [hcompleted, hcovered, hc.completed_eq]
      · rw [hcovered]
        exact Nat.le_trans hc.covered_le hrequested
      · rw [hphase] at hu
        rw [hcovered]
        exact (hc.inHand u hu).imp id (Nat.le_trans · hrequested)

/-- A ticket that is flushed or in hand stays so. -/
theorem secured (h : Moved d calls op d' calls') (hc : d.Counted) (hs : d.Secured t) :
    d'.Secured t := by
  cases h with
  | turn h => exact h.secured hc hs
  | aside _ hphase _ _ _ hcompleted =>
      unfold Secured
      rw [hphase, hcompleted]
      exact hs

/-- A ticket that is not left behind now never will be. -/
theorem kept (h : Moved d calls op d' calls') (hc : d.Counted) (ht : t ≤ d.requested)
    (hk : d.Kept t) : d'.Kept t := by
  cases h with
  | turn h => exact h.kept hc ht hk
  | aside _ hphase hclosed _ _ hcompleted =>
      unfold Kept Secured
      rw [hphase, hclosed, hcompleted]
      exact hk

/-- A dispatcher that has left has closed its ring. -/
theorem closed_of_isGone (h : Moved d calls op d' calls')
    (hleft : d.phase.isGone = true → d.closed = true) (hgone : d'.phase.isGone = true) :
    d'.closed = true := by
  cases h with
  | turn h => exact h.closed_of_isGone hleft hgone
  | aside _ hphase hclosed =>
      rw [hphase] at hgone
      exact hclosed.trans (hleft hgone)

/-- What is known of a ticket since it was given out stays true. -/
theorem awaited (h : Moved d calls op d' calls') (ha : Awaited t n d calls) :
    Awaited t n d' calls' := by
  cases h with
  | turn h => exact h.awaited ha
  | aside _ hphase _ hrequested _ hcompleted =>
      refine ⟨Nat.le_trans ha.requested hrequested, ha.length_le, ?_, ?_⟩
      · rw [hcompleted]
        exact ha.flushed
      · rw [hphase]
        exact ha.inHand

theorem requested_le (h : Moved d calls op d' calls') : d.requested ≤ d'.requested := by
  cases h with
  | aside _ _ _ hrequested => exact hrequested
  | turn h =>
      cases h with
      | read _ _ _ hsame | rest _ _ _ _ _ hsame => exact Nat.le_of_eq hsame.requested_eq.symm
      | undue | due | flush | flushOn | store => exact Nat.le_refl _

/-- What was flushed for once is flushed for. -/
theorem completed_le (h : Moved d calls op d' calls') (hc : d.Counted) :
    d.completed ≤ d'.completed := by
  cases h with
  | aside _ _ _ _ _ hcompleted => exact Nat.le_of_eq hcompleted.symm
  | turn h =>
      cases h with
      | read _ _ _ hsame | rest _ _ _ _ _ hsame => exact Nat.le_of_eq hsame.completed_eq.symm
      | undue | due | flush | flushOn => exact Nat.le_refl _
      | @store handled u hphase =>
          have := (hc.inHand u (congrArg Phase.ticket? hphase)).1
          have := hc.completed_eq
          show d.completed ≤ u
          omega

/-- Once tickets are counted, all that were given out are secured. -/
theorem secured_of_isCounting (h : Moved d calls op d' calls') (hc : d.Counted)
    (ht : t ≤ d.requested) (hcounting : (op.isStep && d.phase.isCounting) = true) :
    d'.Secured t := by
  rw [Bool.and_eq_true] at hcounting
  cases h with
  | turn h => exact h.secured_of_isCounting hc hcounting.2 ht
  | aside hearly =>
      rw [hearly hcounting.1] at hcounting
      exact absurd hcounting.2 Bool.false_ne_true

/-- The handler is called to flush once for each time that tickets are found
due. -/
theorem flushCalls_eq (h : Moved d calls op d' calls') :
    flushCalls calls' + d'.phase.owesFlush.toNat
      = flushCalls calls + d.phase.owesFlush.toNat + (op.isStep && d.findsDue).toNat := by
  cases h with
  | turn h => exact h.flushCalls_eq
  | aside hearly hphase =>
      have hnot : (op.isStep && d.findsDue) = false := by
        cases hstep : op.isStep with
        | false => rfl
        | true =>
            unfold findsDue
            rw [hearly hstep]
            rfl
      rw [hphase, hnot]
      rfl

end Moved

-- ============================================================ progress

/-- A bound on the steps until a ticket that was given out is flushed, or
the dispatcher has left, if so many sequences are taken in the end. -/
def delay (t claimed : Nat) (d : Dispatcher) : Nat :=
  match d.phase with
  | .top => claimed - d.ring.consumed + 5
  | .draining _ | .handling => claimed - d.ring.consumed + 4
  | .checking _ => 3
  | .flushing _ u | .heldInFlush _ u =>
      if t ≤ u then 2 else claimed - d.ring.consumed + 8
  | .storing _ u => if t ≤ u then 1 else claimed - d.ring.consumed + 7
  | .deciding _ => claimed - d.ring.consumed + 6
  | .leaving | .stopping | .heldInStop | .finished => 0

/-- The bound is the number of sequences to be handled, and a few steps. -/
theorem delay_le (t claimed : Nat) (d : Dispatcher) :
    d.delay t claimed ≤ claimed - d.ring.consumed + 8 := by
  unfold delay
  cases d.phase <;> dsimp only <;> (try split) <;> omega

theorem delay_congr (hphase : d'.phase = d.phase) (hring : d'.ring.consumed = d.ring.consumed) :
    d'.delay t claimed = d.delay t claimed := by
  unfold delay
  rw [hphase, hring]

theorem isGone_of_delay (hd : d.delay t claimed = 0) : d.phase.isGone = true := by
  unfold delay at hd
  cases hphase : d.phase <;> rw [hphase] at hd <;> dsimp only at hd <;>
    first
      | rfl
      | omega
      | (split at hd <;> omega)

/-- Who waits for a ticket is served, or the wait gets shorter. -/
theorem Stepped.delay_lt {fates : Fates} (hs : Stepped h d s d' s') (hp : h.Prompt)
    (ht : d.ring.Tracks fates) (hl : d.ring.lent = false) (hheld : d.phase.isHeld = false)
    (hc : d.Counted) (hrequested : t ≤ d.requested) (hclaimed : d.ring.claimed ≤ claimed)
    (hpending : d.completed < t) (hgone : d.phase.isGone = false) :
    t ≤ d'.completed ∨ d'.delay t claimed < d.delay t claimed := by
  have hcompleted := hc.completed_eq
  unfold delay
  cases hs with
  | close hphase | drain hphase =>
      rw [hphase]
      exact .inr (Nat.lt_succ_self _)
  | dry hphase =>
      rw [hphase]
      exact .inr (Nat.lt_of_lt_of_le (Nat.lt_succ_self 3) (Nat.le_add_left 4 _))
  | event hphase hnext hafter =>
      obtain ⟨hpass, -, -, v, hv, -⟩ := Ring.tryNext_some ht hl hnext
      have hd : d' = _ := (congrArg Prod.fst hafter).symm
      rw [afterEvent_ended (hp.onEvent _ _ _)] at hd
      -- the event was below the end, and is behind the cursor now
      have hlt := Fates.lt_of_getElem? hv
      rw [hpass.tracks.length_eq, hpass.claimed_eq] at hlt
      have hle := hpass.le
      subst hd
      rw [hphase]
      refine .inr ?_
      show claimed - (Ring.release _).consumed + 4 < claimed - d.ring.consumed + 4
      unfold Ring.release
      dsimp only
      omega
  | due hphase =>
      rw [hphase]
      refine .inr ?_
      dsimp only
      rw [if_pos hrequested]
      exact Nat.lt_succ_self 2
  | undue _ hundue => exact absurd (Nat.lt_of_lt_of_le (hcompleted ▸ hpending) hrequested) hundue
  | @flush handled u _ _ hphase hafter =>
      have hd : d' = _ := (congrArg Prod.fst hafter).symm
      rw [afterFlush_ended (hp.onFlush _)] at hd
      subst hd
      rw [hphase]
      refine .inr ?_
      dsimp only
      split <;> exact Nat.lt_succ_self _
  | @store handled u hphase =>
      rw [hphase]
      dsimp only
      by_cases htu : t ≤ u
      · exact .inl htu
      · rw [if_neg htu]
        exact .inr (Nat.lt_succ_self _)
  | again hphase =>
      rw [hphase]
      exact .inr (Nat.lt_succ_self _)
  | leave hphase | giveUp hphase =>
      rw [hphase]
      exact .inr (Nat.succ_pos _)
  | depart hphase | stop hphase =>
      rw [hphase] at hgone
      cases hgone
  | eventOn hphase | flushOn hphase | stopOn hphase =>
      rw [hphase] at hheld
      cases hheld

/-- A dispatcher that has left does not come back. -/
theorem isGone_step (hgone : d.phase.isGone = true) (hs : step h d s = some (d', s')) :
    d'.phase.isGone = true := by
  have hafterStop {x : Call H} (hafter : afterStop x d s = (d', s')) : d'.phase.isGone = true := by
    rw [show d' = _ from (congrArg Prod.fst hafter).symm]
    unfold afterStop
    cases x.outcome <;> rfl
  cases stepped_of_step hs with
  | depart => rfl
  | stop _ hafter => exact hafterStop hafter
  | stopOn _ _ hafter => exact hafterStop hafter
  | close hphase | drain hphase | dry hphase | event hphase | eventOn hphase | due hphase
    | undue hphase | flush hphase | flushOn hphase | store hphase | again hphase | leave hphase
    | giveUp hphase =>
      rw [hphase] at hgone
      cases hgone

end Dispatcher

-- ================================================================ runs

namespace Service

open Dispatcher

variable {H : Type} {hh : Handler H} {m₀ : Metrics} {l₀ : StatusLog} {sv : Service (Noted H)}
  {t n claimed : Nat}

/-- How many steps of the dispatcher, in a run, are taken where `p` holds. -/
def stepsWhere (h : Handler H) (p : Dispatcher → Bool) : List ServiceOp → Service H → Nat
  | [], _ => 0
  | op :: rest, sv =>
    (op.isStep && p sv.dispatcher).toNat + stepsWhere h p rest (sv.step h op)

/-- Each operation of a service is a turn of the dispatcher, or leaves its
tickets alone. -/
theorem moved (hh : Handler H) (hinv : sv.Inv m₀ l₀) (op : ServiceOp) :
    Moved sv.dispatcher sv.calls op (sv.step hh.noted op).dispatcher
      (sv.step hh.noted op).calls := by
  cases op with
  | produce op =>
      exact .aside (fun hstep => by cases hstep) rfl rfl (Nat.le_refl _) rfl rfl
  | requestFlush =>
      exact .aside (fun hstep => by cases hstep) rfl rfl (Nat.le_succ _) rfl rfl
  | requestStop | expire =>
      exact .aside (fun hstep => by cases hstep) rfl rfl (Nat.le_refl _) rfl rfl
  | arrive | draw =>
      simp only [step]
      split <;> exact .aside (fun hstep => by cases hstep) rfl rfl (Nat.le_refl _) rfl rfl
  | step =>
      simp only [step]
      split
      · next hrest =>
        refine .aside (fun _ => Bool.eq_false_iff.2 fun hcounting => ?_) rfl rfl (Nat.le_refl _)
          rfl rfl
        -- where tickets are counted, the dispatcher does not rest
        cases hphase : sv.dispatcher.phase with
        | checking handled =>
            simp only [Dispatcher.step, hphase] at hrest
            split at hrest <;> cases hrest
        | _ =>
            rw [hphase] at hcounting
            cases hcounting
      · next d s hs => exact .turn (turn_of_step hinv hs)

/-- What every move keeps holds along every run. -/
theorem run_of_moved {P : Dispatcher → List HandlerCall → Prop}
    (hP : ∀ {op d calls d' calls'}, Moved d calls op d' calls' → P d calls → P d' calls')
    (hinv : sv.Inv m₀ l₀) (ops : List ServiceOp) (h : P sv.dispatcher sv.calls) :
    P (sv.run hh.noted ops).dispatcher (sv.run hh.noted ops).calls := by
  induction ops generalizing sv with
  | nil => exact h
  | cons op rest ih => exact ih (inv_step hh hinv op) (hP (moved hh hinv op) h)

/-- The handler was called for the same tasks, and maybe for more. -/
theorem tasks_run (hh : Handler H) (hinv : sv.Inv m₀ l₀) (ops : List ServiceOp) :
    sv.tasks <+: (sv.run hh.noted ops).tasks :=
  run_of_moved (P := fun _ calls => sv.tasks <+: calls.map HandlerCall.task)
    (fun hm h => h.trans hm.keeps_tasks) hinv ops List.prefix_rfl

theorem counted_run (hinv : sv.Inv m₀ l₀) (ops : List ServiceOp) (hc : sv.dispatcher.Counted) :
    (sv.run hh.noted ops).dispatcher.Counted :=
  run_of_moved (P := fun d _ => d.Counted) (fun hm => hm.counted) hinv ops hc

/-- A secured ticket is secured for good. -/
theorem secured_run (hinv : sv.Inv m₀ l₀) (ops : List ServiceOp) (hc : sv.dispatcher.Counted)
    (hs : sv.dispatcher.Secured t) : (sv.run hh.noted ops).dispatcher.Secured t :=
  (run_of_moved (P := fun d _ => d.Counted ∧ d.Secured t)
    (fun hm h => ⟨hm.counted h.1, hm.secured h.1 h.2⟩) hinv ops ⟨hc, hs⟩).2

/-- A flushed ticket is flushed for good. -/
theorem completed_le_run (hinv : sv.Inv m₀ l₀) (ops : List ServiceOp) (hc : sv.dispatcher.Counted)
    (hdone : t ≤ sv.dispatcher.completed) : t ≤ (sv.run hh.noted ops).dispatcher.completed :=
  (run_of_moved (P := fun d _ => d.Counted ∧ t ≤ d.completed)
    (fun hm h => ⟨hm.counted h.1, Nat.le_trans h.2 (hm.completed_le h.1)⟩) hinv ops ⟨hc, hdone⟩).2

/-- A dispatcher that has left does not come back. -/
theorem isGone_run (ops : List ServiceOp) (hgone : sv.phase.isGone = true) :
    (sv.run hh.noted ops).phase.isGone = true := by
  induction ops generalizing sv with
  | nil => exact hgone
  | cons op rest ih =>
      refine ih ?_
      cases op with
      | arrive | draw =>
          simp only [step]
          split <;> exact hgone
      | step =>
          simp only [step]
          split
          · exact hgone
          · next d s hs => exact isGone_step hgone hs
      | _ => exact hgone

theorem closed_of_isGone_run (hinv : sv.Inv m₀ l₀) (ops : List ServiceOp)
    (hleft : sv.phase.isGone = true → sv.dispatcher.closed = true) :
    (sv.run hh.noted ops).phase.isGone = true → (sv.run hh.noted ops).dispatcher.closed = true :=
  run_of_moved (P := fun d _ => d.phase.isGone = true → d.closed = true)
    (fun hm h => hm.closed_of_isGone h) hinv ops hleft

/-- No ticket that was given out is left behind in a run. -/
theorem kept_run (hinv : sv.Inv m₀ l₀) (ops : List ServiceOp) (hc : sv.dispatcher.Counted)
    (ht : t ≤ sv.dispatcher.requested) (hk : sv.dispatcher.Kept t) :
    (sv.run hh.noted ops).dispatcher.Kept t :=
  (run_of_moved (P := fun d _ => d.Counted ∧ t ≤ d.requested ∧ d.Kept t)
    (fun hm h => ⟨hm.counted h.1, Nat.le_trans h.2.1 hm.requested_le, hm.kept h.1 h.2.1 h.2.2⟩)
    hinv ops ⟨hc, ht, hk⟩).2.2

/-- Once tickets are counted, those that were given out are secured. -/
theorem secured_of_isCounting (hinv : sv.Inv m₀ l₀) (ops : List ServiceOp)
    (hc : sv.dispatcher.Counted) (ht : t ≤ sv.dispatcher.requested)
    (hcounting : 0 < stepsWhere hh.noted (·.phase.isCounting) ops sv) :
    (sv.run hh.noted ops).dispatcher.Secured t := by
  induction ops generalizing sv with
  | nil => cases hcounting
  | cons op rest ih =>
      have hm : Moved _ _ op _ _ := moved hh hinv op
      cases hnow : op.isStep && sv.dispatcher.phase.isCounting with
      | true =>
          exact secured_run (inv_step hh hinv op) rest (hm.counted hc)
            (hm.secured_of_isCounting hc ht hnow)
      | false =>
          unfold stepsWhere at hcounting
          rw [hnow, Bool.toNat_false, Nat.zero_add] at hcounting
          exact ih (inv_step hh hinv op) (hm.counted hc) (Nat.le_trans ht hm.requested_le) hcounting

/-- The handler is called to flush once for each time something is due. -/
theorem flushCalls_run (hinv : sv.Inv m₀ l₀) (ops : List ServiceOp) :
    flushCalls (sv.run hh.noted ops).calls + (sv.run hh.noted ops).phase.owesFlush.toNat
      = flushCalls sv.calls + sv.phase.owesFlush.toNat + stepsWhere hh.noted findsDue ops sv := by
  induction ops generalizing sv with
  | nil => rfl
  | cons op rest ih =>
      have hm : Moved _ _ op _ _ := moved hh hinv op
      exact (ih (inv_step hh hinv op)).trans
        ((congrArg (· + _) hm.flushCalls_eq).trans (Nat.add_assoc _ _ _))

-- ============================================================ progress

theorem claimed_le_step (hinv : sv.Inv m₀ l₀) (op : ServiceOp) :
    sv.ring.claimed ≤ (sv.step hh.noted op).ring.claimed := by
  rw [← hinv.tracks.length_eq, ← (inv_step hh hinv op).tracks.length_eq]
  cases op with
  | produce op => exact Traffic.length_produce sv.traffic op
  | arrive =>
      simp only [step]
      split <;> exact Nat.le_refl _
  | draw =>
      simp only [step]
      split
      · exact Nat.le_refl _
      · exact List.length_append ▸ Nat.le_add_right _ _
  | step =>
      simp only [step]
      split <;> exact Nat.le_refl _
  | _ => exact Nat.le_refl _

theorem claimed_le_run (hinv : sv.Inv m₀ l₀) (ops : List ServiceOp) :
    sv.ring.claimed ≤ (sv.run hh.noted ops).ring.claimed := by
  induction ops generalizing sv with
  | nil => exact Nat.le_refl _
  | cons op rest ih => exact Nat.le_trans (claimed_le_step hinv op) (ih (inv_step hh hinv op))

/-- While the ticket is not flushed and the dispatcher is there, each of its
steps shortens the wait, and nothing else makes it longer. -/
theorem delay_step (hp : hh.Prompt) (hinv : sv.Inv m₀ l₀) (hheld : sv.phase.isHeld = false)
    (hc : sv.dispatcher.Counted) (ht : t ≤ sv.dispatcher.requested)
    (hclaimed : sv.ring.claimed ≤ claimed) (hpending : sv.dispatcher.completed < t)
    (hgone : sv.phase.isGone = false) (op : ServiceOp) :
    t ≤ (sv.step hh.noted op).dispatcher.completed
      ∨ (sv.step hh.noted op).dispatcher.delay t claimed + op.isStep.toNat
        ≤ sv.dispatcher.delay t claimed := by
  cases op with
  | produce op =>
      have hk := Traffic.kept_produce (t := sv.traffic) hinv.tracks op
      exact .inr (Nat.le_of_eq (delay_congr rfl hk.consumed_eq))
  | arrive | draw =>
      simp only [step]
      split <;> exact .inr (Nat.le_of_eq (delay_congr rfl rfl))
  | requestFlush | requestStop | expire => exact .inr (Nat.le_of_eq (delay_congr rfl rfl))
  | step =>
      have hdue : sv.dispatcher.covered < sv.dispatcher.requested :=
        Nat.lt_of_lt_of_le (hc.completed_eq ▸ hpending) ht
      have hbusy : sv.dispatcher.isIdle = false := by
        unfold isIdle
        rw [decide_eq_false (Nat.not_le.2 hdue)]
        simp
      have hunfinished : sv.dispatcher.isFinished = false := Bool.eq_false_iff.2 fun hf => by
        have hphase : sv.dispatcher.phase = .finished := by simpa [isFinished] using hf
        rw [show sv.phase = .finished from hphase] at hgone
        cases hgone
      obtain ⟨⟨d, s⟩, hs⟩ := exists_step hh.noted sv.shared hheld hunfinished fun _ => hbusy
      simp only [step, hs]
      exact (stepped_of_step hs).delay_lt hp.noted hinv.tracks (hinv.not_lent hheld) hheld hc ht
        hclaimed hpending hgone

/-- With steps enough the ticket is flushed, or the dispatcher has left. -/
theorem flushed_run (hp : hh.Prompt) (hinv : sv.Inv m₀ l₀) (hheld : sv.phase.isHeld = false)
    (hc : sv.dispatcher.Counted) (ht : t ≤ sv.dispatcher.requested) (ops : List ServiceOp)
    (hclaimed : (sv.run hh.noted ops).ring.claimed ≤ claimed)
    (hsteps : sv.dispatcher.delay t claimed ≤ ops.countP (·.isStep)) :
    t ≤ (sv.run hh.noted ops).dispatcher.completed
      ∨ (sv.run hh.noted ops).phase.isGone = true := by
  induction ops generalizing sv with
  | nil => exact .inr (isGone_of_delay (Nat.le_zero.1 hsteps))
  | cons op rest ih =>
      have hinv' := inv_step hh hinv op
      have hm : Moved _ _ op _ _ := moved hh hinv op
      have hheld' : (sv.step hh.noted op).phase.isHeld = false :=
        (prompt_run hp.noted [op] hheld).1
      by_cases hflushed : t ≤ sv.dispatcher.completed
      · exact .inl (completed_le_run hinv (op :: rest) hc hflushed)
      · cases hgone : sv.phase.isGone with
        | true => exact .inr (isGone_run (op :: rest) hgone)
        | false =>
            have hclaimed' := Nat.le_trans (claimed_le_run hinv (op :: rest)) hclaimed
            rcases delay_step hp hinv hheld hc ht hclaimed' (Nat.lt_of_not_le hflushed) hgone op
              with hdone | hless
            · exact .inl (completed_le_run hinv' rest (hm.counted hc) hdone)
            · rw [List.countP_cons] at hsteps
              refine ih hinv' hheld' (hm.counted hc) (Nat.le_trans ht hm.requested_le) hclaimed ?_
              cases hstep : op.isStep <;> rw [hstep] at hless hsteps <;> simp at hless hsteps <;>
                omega

-- ============================================================= tickets

/-- Calls for more tasks show more events. -/
theorem shownEvents_mono {calls calls' : List HandlerCall}
    (h : calls.map (·.task) <+: calls'.map (·.task)) :
    shownEvents calls <+: shownEvents calls' := by
  have hshown (cs : List HandlerCall) : shownEvents cs = (cs.map (·.task)).filterMap
      fun task => task.slot?.map fun slot => { slot with endOfBatch := false } := by
    rw [List.filterMap_map]
    rfl
  rw [hshown, hshown]
  exact h.filterMap _

/-- A flush that was asked for comes after the calls for all events that
were released when it was. -/
theorem released_shown (hinv : sv.Inv m₀ l₀) (ops : List ServiceOp)
    (hflushed : FlushedSince sv.calls.length (sv.run hh.noted ops).calls) :
    ∃ earlier c later, (sv.run hh.noted ops).calls = earlier ++ c :: later
      ∧ sv.calls.length ≤ earlier.length ∧ c.task = .flush ∧ c.hasEnded = true
      ∧ (∀ c' ∈ earlier, c'.hasEnded = true)
      ∧ (sv.fates.eventsBelow sv.ring.consumed).map Prod.snd <+: shownEvents earlier := by
  obtain ⟨earlier, c, later, hcalls, hlength, htask, hended, hover⟩ := hflushed
  refine ⟨earlier, c, later, hcalls, hlength, htask, hended, hover, ?_⟩
  have htasks : sv.tasks <+: earlier.map (·.task) := by
    refine List.prefix_of_prefix_length_le (tasks_run hh hinv ops) ?_ ?_
    · unfold tasks
      rw [hcalls, List.map_append]
      exact List.prefix_append _ _
    · unfold tasks
      rw [List.length_map, List.length_map]
      exact hlength
  have hreleased :
      sv.fates.eventsBelow sv.ring.consumed <+: sv.fates.eventsBelow sv.ring.frontier :=
    sv.fates.eventsBelow_mono (Nat.le_add_right _ _)
  refine (hreleased.map Prod.snd).trans ?_
  rw [← hinv.given]
  exact shownEvents_mono htasks

/-- A dispatcher that has left after closing has flushed for the tickets it
gave out before. -/
theorem flushed_of_isGone (hinv : sv.Inv m₀ l₀) (ops : List ServiceOp)
    (hc : sv.dispatcher.Counted) (ht : t ≤ sv.dispatcher.requested)
    (hopen : sv.dispatcher.closed = false) (hstay : sv.phase.isGone = false)
    (hgone : (sv.run hh.noted ops).phase.isGone = true) :
    (sv.run hh.noted ops).dispatcher.isFlushed t = true := by
  have hkept : sv.dispatcher.Kept t := fun hclosed => by
    rw [hopen] at hclosed
    cases hclosed
  have hclosed : (sv.run hh.noted ops).dispatcher.closed = true :=
    closed_of_isGone_run hinv ops (fun hg => by rw [hstay] at hg; cases hg) hgone
  obtain ⟨hidle, hcounted⟩ := Phase.ticket?_of_isGone hgone
  refine isFlushed_of_secured hidle ?_
  refine (kept_run hinv ops hc ht hkept hclosed).resolve_left fun huncounted => ?_
  rw [show (sv.run hh.noted ops).dispatcher.phase.isUncounted = false from hcounted] at huncounted
  cases huncounted

theorem counted_start (size : Nat) (s : Shared H) : (start size s).dispatcher.Counted :=
  ⟨rfl, Nat.le_refl _, fun _ hu => by cases hu⟩

/-- Tickets, from any moment of any run at which one is given out. Later
ones are greater, and no more were flushed for than given out. If the
ticket is said to be flushed, the handler was called to flush after it was
given out, and that call is over, as is every call before it, among them
those for all events released by then. The handler is called to flush once
for each time that tickets are counted and some are due; once they were
counted, the ticket is flushed as soon as no flush is under way. A
dispatcher whose ring was open then does not leave before. And if calls
end, the ticket is flushed after so many steps of the dispatcher, unless it
has left. -/
theorem tickets_honest (h : Handler H) (size : Nat) (s₀ : Shared H)
    (before after : List ServiceOp) :
    let sv₁ := (start size s₀.noted).run h.noted before
    let t := sv₁.dispatcher.requestFlush.1
    let sv := sv₁.run h.noted (.requestFlush :: after)
    sv.plain = (start size s₀).run h (before ++ .requestFlush :: after)
      ∧ t < sv.dispatcher.requestFlush.1
      ∧ sv.dispatcher.completed ≤ sv.dispatcher.requested
      ∧ (sv.dispatcher.isFlushed t = true →
          ∃ earlier c later, sv.calls = earlier ++ c :: later
            ∧ sv₁.calls.length ≤ earlier.length ∧ c.task = .flush ∧ c.hasEnded = true
            ∧ (∀ c' ∈ earlier, c'.hasEnded = true)
            ∧ (sv₁.fates.eventsBelow sv₁.ring.consumed).map Prod.snd <+: shownEvents earlier)
      ∧ flushCalls sv.calls + sv.phase.owesFlush.toNat
          = flushCalls sv₁.calls + sv₁.phase.owesFlush.toNat
            + stepsWhere h.noted findsDue (.requestFlush :: after) sv₁
      ∧ (0 < stepsWhere h.noted (·.phase.isCounting) (.requestFlush :: after) sv₁ →
          sv.phase.ticket? = none → sv.dispatcher.isFlushed t = true)
      ∧ (sv₁.dispatcher.closed = false → sv.phase.isGone = true →
          sv.dispatcher.isFlushed t = true)
      ∧ (h.Prompt → sv.ring.claimed - sv₁.ring.consumed + 8 ≤ after.countP (·.isStep) →
          sv.dispatcher.isFlushed t = true ∨ sv.phase.isGone = true) := by
  intro sv₁ t sv
  have hinv₁ : sv₁.Inv s₀.metrics s₀.status := inv_run h before (inv_start size s₀)
  have hc₁ : sv₁.dispatcher.Counted :=
    counted_run (inv_start size s₀) before (counted_start size s₀.noted)
  -- the service right after the ticket was given out
  obtain ⟨sv₂, hsv₂⟩ : ∃ sv₂, sv₂ = sv₁.step h.noted .requestFlush := ⟨_, rfl⟩
  have hsv : sv = sv₂.run h.noted after := by rw [hsv₂]; rfl
  have hinv₂ : sv₂.Inv s₀.metrics s₀.status := hsv₂ ▸ inv_step h hinv₁ .requestFlush
  have hc₂ : sv₂.dispatcher.Counted := hsv₂ ▸ (moved h hinv₁ .requestFlush).counted hc₁
  have hawaited₂ : Awaited t sv₁.calls.length sv₂.dispatcher sv₂.calls :=
    hsv₂ ▸ awaited_requestFlush hc₁ sv₁.calls
  have hc : sv.dispatcher.Counted := counted_run hinv₁ _ hc₁
  have hawaited : Awaited t sv₁.calls.length sv.dispatcher sv.calls := by
    rw [hsv]
    exact run_of_moved (P := Awaited t sv₁.calls.length) (fun hm => hm.awaited) hinv₂ after
      hawaited₂
  refine ⟨?_, Nat.lt_succ_of_le hawaited.requested, hc.completed_eq ▸ hc.covered_le,
    fun hdone => released_shown hinv₁ _ (hawaited.flushed (of_decide_eq_true hdone)),
    flushCalls_run hinv₁ _, ?_, ?_, ?_⟩
  · rw [run_append]
    exact (plain_run h _ sv₁).trans (congrArg (run h _) (plain_run h before _))
  · intro hcounting hidle
    have hcounting₂ : 0 < stepsWhere h.noted (·.phase.isCounting) after sv₂ := by
      rw [stepsWhere, ← hsv₂] at hcounting
      exact Nat.lt_of_lt_of_le hcounting (Nat.le_of_eq (Nat.zero_add _))
    rw [hsv] at hidle ⊢
    exact isFlushed_of_secured hidle
      (secured_of_isCounting hinv₂ after hc₂ hawaited₂.requested hcounting₂)
  · intro hopen hgone
    have hstay₁ : sv₁.phase.isGone = false := Bool.eq_false_iff.2 fun hgone₁ => by
      have hclosed₁ :=
        closed_of_isGone_run (inv_start size s₀) before (fun hg => by cases hg) hgone₁
      rw [show ((start size s₀.noted).run h.noted before).dispatcher.closed = false from hopen]
        at hclosed₁
      cases hclosed₁
    rw [hsv] at hgone ⊢
    exact flushed_of_isGone hinv₂ after hc₂ hawaited₂.requested (hsv₂ ▸ hopen) (hsv₂ ▸ hstay₁)
      hgone
  · intro hprompt hsteps
    have hheld₁ : sv₁.phase.isHeld = false := (prompt_run hprompt.noted before rfl).1
    have hheld₂ : sv₂.phase.isHeld = false := hsv₂ ▸ hheld₁
    have hdelay : sv₂.dispatcher.delay t sv.ring.claimed ≤ after.countP (·.isStep) := by
      refine Nat.le_trans (delay_le _ _ _) ?_
      rw [hsv₂]
      exact hsteps
    rw [hsv] at hdelay ⊢
    exact (flushed_run hprompt hinv₂ hheld₂ hc₂ hawaited₂.requested after (Nat.le_refl _)
      hdelay).imp (fun hdone => decide_eq_true hdone) id

end Service

end LogPipeline
