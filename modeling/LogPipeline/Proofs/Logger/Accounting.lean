/-
Every logging call is accounted for, once: it was filtered, or rejected,
or its event was published; and what was published is delivered or failed
in the end. A call that waits for room has not returned, so it is counted
with the callers that wait, and not yet anywhere else.

A synchronous logger counts everything on the spot (`Direct`). An
asynchronous one shares its counters with the dispatcher; `Books` ties
them to the record of the ring, as `Dispatcher.Squares` does, and says
who waits under which sequence. Everything that a logger does keeps the
books (`books_make`, `books_settle`, `books_flushAsync`,
`books_stopAsync`), so every move does (`direct_act`, `booked_act`). A
clean shutdown leaves a logger that is `Over`.
-/
import LogPipeline.Logger.Build
import LogPipeline.Proofs.Dispatcher.Balance
import LogPipeline.Proofs.Logger.Moves
import LogPipeline.Proofs.Ring.Waiting
import LogPipeline.Proofs.Samples

namespace LogPipeline

namespace Dispatcher

variable {H : Type} {h : Handler H} {d : Dispatcher} {s : Shared H}

/-- However long a dispatcher goes on, its owner keeps it. -/
theorem attached_settleFor (n : Nat) : (settleFor h n d s).1.attached = d.attached := by
  induction n generalizing d s with
  | zero => rfl
  | succ n ih =>
      unfold settleFor
      split
      · next hs => exact ih.trans (attached_step hs)
      · rfl

end Dispatcher

namespace Logger

variable {α S : Type} {ops : AppenderOps α S} {l : Logger α} {site : Site S}

-- ================================================= synchronous loggers

/-- The counters of a synchronous logger after so many calls. -/
structure Direct (calls : Nat) (l : Logger α) : Prop where
  waiters_eq : l.waiters = []
  answered_eq : l.metrics.filtered + l.metrics.rejected + l.metrics.published = calls
  delivered_eq : l.metrics.published = l.metrics.delivered + l.metrics.failures
  endOfBatch_eq : l.metrics.published = l.metrics.endOfBatch
  /-- A logger that has been shut down has given its appenders up. -/
  backend_eq : ∃ work, l.backend = .sync work ∧ (l.accepting = false → work = none)

namespace Direct

variable {calls : Nat}

/-- Every call is filtered, rejected or published, or its caller waits. -/
theorem all_counted (h : l.Direct calls) :
    l.metrics.filtered + l.metrics.rejected + l.metrics.published + l.waiters.length = calls := by
  rw [h.waiters_eq]
  exact h.answered_eq

/-- A call that is turned away is one more, and is counted. -/
theorem turnedAway (h : l.Direct calls) {k : Counter} (hk : k = .filtered ∨ k = .rejected) :
    (l.count k).Direct (calls + 1) := by
  have hanswered := h.answered_eq
  refine ⟨h.waiters_eq, ?_, ?_, ?_, h.backend_eq⟩
  · rcases hk with rfl | rfl
    · show l.metrics.filtered + 1 + l.metrics.rejected + l.metrics.published = calls + 1
      omega
    · show l.metrics.filtered + (l.metrics.rejected + 1) + l.metrics.published = calls + 1
      omega
  · rcases hk with rfl | rfl <;> exact h.delivered_eq
  · rcases hk with rfl | rfl <;> exact h.endOfBatch_eq

/-- An event that is delivered on the spot is counted three times over: as
published, as delivered or failed, and as the end of its batch. -/
theorem publishSync (h : l.Direct calls) (haccepting : l.accepting = true) (v : EventValues)
    (slot : EventSlot) (set : AppenderSet α) :
    (l.publishSync ops v slot set site).1.Direct (calls + 1) := by
  have hanswered := h.answered_eq
  have hdelivered := h.delivered_eq
  have hends := h.endOfBatch_eq
  have hbackend : ∃ work, (l.publishSync ops v slot set site).1.backend = .sync work
      ∧ (l.accepting = false → work = none) :=
    ⟨_, rfl, fun hshut => by rw [haccepting] at hshut; cases hshut⟩
  unfold Logger.publishSync at hbackend ⊢
  dsimp only at hbackend ⊢
  cases Outcome.ofExcept (set.deliver ops
    { slot.setValues v with endOfBatch := true } true site.world).result with
  | done =>
      refine ⟨h.waiters_eq, ?_, ?_, ?_, hbackend⟩
      · show l.metrics.filtered + l.metrics.rejected + (l.metrics.published + 1) = calls + 1
        omega
      · show l.metrics.published + 1 = l.metrics.delivered + 1 + l.metrics.failures
        omega
      · show l.metrics.published + 1 = l.metrics.endOfBatch + 1
        omega
  | failed e | panicked text =>
      refine ⟨h.waiters_eq, ?_, ?_, ?_, hbackend⟩
      · show l.metrics.filtered + l.metrics.rejected + (l.metrics.published + 1) = calls + 1
        omega
      · show l.metrics.published + 1 = l.metrics.delivered + (l.metrics.failures + 1)
        omega
      · show l.metrics.published + 1 = l.metrics.endOfBatch + 1
        omega

theorem make (h : l.Direct calls) (c : LoggingCall) :
    (l.make ops c site).1.Direct (calls + 1) := by
  obtain ⟨q, v, hmake⟩ := make_eq ops c l site
  rw [hmake]
  unfold submit
  split
  · cases haccepting : l.accepting with
    | false =>
        unfold publish
        rw [haccepting]
        exact h.turnedAway (.inr rfl)
    | true =>
        obtain ⟨work, hbackend, -⟩ := h.backend_eq
        rcases work with _ | ⟨slot, set⟩
        · rw [publish_stopped hbackend]
          exact h.turnedAway (.inr rfl)
        · rw [publish_sync haccepting hbackend]
          exact h.publishSync haccepting v slot set
  · exact h.turnedAway (.inl rfl)

theorem dispatch (h : l.Direct calls) (n : Nat) : l.dispatch ops n site = (l, site) := by
  obtain ⟨work, hbackend, -⟩ := h.backend_eq
  unfold Logger.dispatch
  rw [hbackend]

/-- A synchronous logger that has been shut down is over. -/
theorem isOver (h : l.Direct calls) (hshut : l.accepting = false) : l.Over := by
  obtain ⟨work, hbackend, hnone⟩ := h.backend_eq
  exact ⟨hshut, h.waiters_eq, .inl (hnone hshut ▸ hbackend)⟩

end Direct

-- ================================================ asynchronous loggers

/-- How a logger stands towards its shutdown. -/
structure Standing where
  attached : Bool
  accepting : Bool
  cleanShutdown : Bool

/-- The books of an asynchronous logger after so many calls: each has been
answered, or its caller is one of those who wait. -/
structure Books (fates : Fates) (calls : Nat) (st : Standing) (ws : List Ring.Waiter)
    (l : Logger α) (d : Dispatcher) : Prop where
  backend_eq : ∃ set round, l.backend = .async d set round
  standing_eq : (⟨d.attached, l.accepting, l.cleanShutdown⟩ : Standing) = st
  squares : ∃ answered, d.Squares fates answered l.metrics ∧ answered + ws.length = calls
  awaited : fates.Awaited ws

variable {fates : Fates} {calls : Nat} {st : Standing} {ws : List Ring.Waiter} {d : Dispatcher}

/-- The books of a new logger are empty. -/
theorem books_start (settings : LoggerSettings) (size : Nat) (set : AppenderSet α) :
    Books [] 0 ⟨true, true, true⟩ []
      (fresh settings (.async (.onNewRing size) set none)) (.onNewRing size) where
  backend_eq := ⟨set, none, rfl⟩
  standing_eq := rfl
  squares := ⟨0, Dispatcher.squares_start size, rfl⟩
  awaited := ⟨fun w hw => (by cases hw), List.nodup_nil⟩

namespace Books

/-- In which order they wait is of no concern. -/
theorem perm (h : Books fates calls st ws l d) {ws' : List Ring.Waiter} (hp : ws'.Perm ws) :
    Books fates calls st ws' l d :=
  { h with
    squares := hp.length_eq ▸ h.squares
    awaited := h.awaited.perm hp }

theorem turnedAway (h : Books fates calls st ws l d) {k : Counter}
    (hk : k = .filtered ∨ k = .rejected) : Books fates (calls + 1) st ws (l.count k) d := by
  obtain ⟨answered, hq, hcalls⟩ := h.squares
  exact ⟨h.backend_eq, h.standing_eq, ⟨answered + 1, hq.turnedAway hk, by omega⟩, h.awaited⟩

theorem waits (h : Books fates calls st ws l d) :
    Books fates calls st ws (l.count .waits) d := by
  obtain ⟨answered, hq, hcalls⟩ := h.squares
  exact ⟨h.backend_eq, h.standing_eq, ⟨answered, hq.waits, hcalls⟩, h.awaited⟩

/-- A dispatcher that has finished and left nothing behind leaves nobody
waiting, and nothing between published and delivered or failed. -/
theorem balanced (h : Books fates calls st ws l d) (hfinished : d.isFinished = true)
    (hclean : d.abandoned = 0) :
    ws = [] ∧ l.metrics.published = l.metrics.delivered + l.metrics.failures := by
  obtain ⟨answered, hq, -⟩ := h.squares
  obtain ⟨hbalanced, hres⟩ := hq.balanced hfinished hclean
  exact ⟨h.awaited.eq_nil hres, hbalanced⟩

/-- A dispatcher that has finished has closed its ring. -/
theorem closed (h : Books fates calls st ws l d) (hfinished : d.isFinished = true) :
    d.ring.closed = true := by
  obtain ⟨answered, hq, -⟩ := h.squares
  have hphase : d.phase = .finished := by simpa [Dispatcher.isFinished] using hfinished
  exact (hq.gone (hphase ▸ rfl)).1

theorem dispatcher_eq (h : Books fates calls st ws l d) : l.dispatcher? = some d := by
  obtain ⟨set, round, hbackend⟩ := h.backend_eq
  unfold dispatcher?
  rw [hbackend]

end Books

/-- Something about the dispatcher is changed from outside. -/
theorem books_onDispatcher (h : Books fates calls st ws l d) (f : Dispatcher → Dispatcher)
    (hf : ∀ answered, d.Squares fates answered l.metrics →
      (f d).Squares fates answered l.metrics) :
    Books fates calls { st with attached := (f d).attached } ws (l.onDispatcher f) (f d)
      ∧ (l.onDispatcher f).waiters = l.waiters := by
  obtain ⟨set, round, hbackend⟩ := h.backend_eq
  obtain ⟨answered, hq, hcalls⟩ := h.squares
  unfold onDispatcher
  rw [hbackend, ← h.standing_eq]
  exact ⟨⟨⟨set, round, rfl⟩, rfl, ⟨answered, hf answered hq, hcalls⟩, h.awaited⟩, rfl⟩

/-- However many steps the dispatcher takes. -/
theorem books_dispatch (ops : AppenderOps α S) (h : Books fates calls st ws l d) (n : Nat)
    (site : Site S) :
    ∃ d', Books fates calls st ws (l.dispatch ops n site).1 d'
      ∧ (l.dispatch ops n site).1.waiters = l.waiters := by
  obtain ⟨set, round, hbackend⟩ := h.backend_eq
  obtain ⟨answered, hq, hcalls⟩ := h.squares
  obtain ⟨s, hs⟩ : ∃ s : Shared (Crew α S),
    s = ⟨l.metrics, site.status, ⟨set, round, site.world⟩⟩ := ⟨_, rfl⟩
  have hsettled : (d.settleFor (Crew.handler ops) n s).1.Squares fates answered
      (d.settleFor (Crew.handler ops) n s).2.metrics :=
    Dispatcher.squares_settleFor n (hs ▸ hq)
  have hattached : (d.settleFor (Crew.handler ops) n s).1.attached = d.attached :=
    Dispatcher.attached_settleFor n
  have hstanding := h.standing_eq
  rw [← hattached] at hstanding
  unfold dispatch
  rw [hbackend]
  dsimp only
  rw [← hs]
  exact ⟨_, ⟨⟨_, _, rfl⟩, hstanding, ⟨answered, hsettled, hcalls⟩, h.awaited⟩, rfl⟩

/-- The dispatcher keeps the books, and nobody stops waiting for it. -/
theorem books_runDispatcher (ops : AppenderOps α S) (h : Books fates calls st ws l d)
    (site : Site S) :
    ∃ d', Books fates calls st ws (l.runDispatcher ops site).1 d'
      ∧ (l.runDispatcher ops site).1.waiters = l.waiters := by
  obtain ⟨n, hn⟩ := runDispatcher_eq ops l site
  rw [hn]
  exact books_dispatch ops h n site

-- ======================================================= callers that wait

/-- What a caller's answer makes of a logger. -/
def heard (w : Ring.Waiter) (answer : Option (Except LogError Nat)) (l : Logger α) : Logger α :=
  { l with
    metrics := l.metrics.told answer
    waiters := if answer.isSome then l.waiters else l.waiters ++ [w] }

/-- A caller that asks again counts as one that has waited, if its event is
published in the end. -/
theorem retryWaiter_eq {set : AppenderSet α} {round : Option (Round α)}
    (hbackend : l.backend = .async d set round) (w : Ring.Waiter) :
    l.retryWaiter w
        = (l.onDispatcher ({ · with ring := (d.ring.retry w).2 })).heard w (d.ring.retry w).1
      ∨ l.retryWaiter w = ((l.onDispatcher ({ · with ring := (d.ring.retry w).2 })).heard w
        (d.ring.retry w).1).count .waits := by
  unfold retryWaiter onDispatcher
  rw [hbackend]
  dsimp only
  rcases d.ring.retry w with ⟨_ | _ | _, ring⟩
  · exact .inl rfl
  · exact .inl rfl
  · exact .inr rfl

/-- A caller that has just taken its sequence goes on like one that waits. -/
theorem publishAsync_eq {seq : Nat} {ring : Ring} {set : AppenderSet α} {round : Option (Round α)}
    (hbackend : l.backend = .async d set round) (hring : d.ring.reserve = some (seq, ring))
    (v : EventValues) :
    publishAsync v d set round l = ((l.onDispatcher ({ · with ring })).onDispatcher
      ({ · with ring := (ring.retry ⟨seq, v⟩).2 })).heard ⟨seq, v⟩ (ring.retry ⟨seq, v⟩).1 := by
  unfold publishAsync onDispatcher Ring.retry
  rw [hring, hbackend]
  dsimp only
  rcases ring.confirm seq with ⟨_ | _ | _, ring'⟩ <;> rfl

/-- The answer that a caller gets goes into the books. -/
theorem books_heard {w : Ring.Waiter} (rest : List Ring.Waiter)
    (h : Books fates calls st (w :: (rest ++ l.waiters)) l d) :
    let l' := (l.onDispatcher ({ · with ring := (d.ring.retry w).2 })).heard w (d.ring.retry w).1
    ∃ fates' d', Books fates' calls st (rest ++ l'.waiters) l' d' := by
  obtain ⟨set, round, hbackend⟩ := h.backend_eq
  obtain ⟨answered, hq, hcalls⟩ := h.squares
  have hw := h.awaited.waiting w List.mem_cons_self
  obtain ⟨f, htold, hq'⟩ := Dispatcher.squares_retry hq hw
  unfold onDispatcher
  rw [hbackend]
  dsimp only [heard]
  generalize d.ring.retry w = o at htold hq' ⊢
  obtain ⟨answer, ring⟩ := o
  cases answer with
  | none =>
      refine ⟨_, { d with ring }, ⟨set, round, rfl⟩, h.standing_eq, ⟨answered, hq', ?_⟩, ?_⟩
      · rw [List.length_cons, List.length_append] at hcalls
        show answered + (rest ++ (l.waiters ++ [w])).length = calls
        rw [List.length_append, List.length_append, List.length_singleton]
        omega
      · rw [show f = .reserved from htold, Fates.set_self hw]
        refine h.awaited.perm ?_
        show (rest ++ (l.waiters ++ [w])).Perm _
        rw [← List.append_assoc]
        exact List.perm_append_singleton w (rest ++ l.waiters)
  | some told =>
      refine ⟨_, { d with ring }, ⟨set, round, rfl⟩, h.standing_eq, ⟨answered + 1, hq', ?_⟩,
        h.awaited.answered f⟩
      rw [List.length_cons] at hcalls
      show answered + 1 + (rest ++ l.waiters).length = calls
      omega

/-- One that waits tries again. -/
theorem books_retryWaiter {w : Ring.Waiter} (rest : List Ring.Waiter)
    (h : Books fates calls st (w :: (rest ++ l.waiters)) l d) :
    ∃ fates' d', Books fates' calls st (rest ++ (l.retryWaiter w).waiters) (l.retryWaiter w)
      d' := by
  obtain ⟨fates', d', h'⟩ := books_heard rest h
  obtain ⟨set, round, hbackend⟩ := h.backend_eq
  rcases retryWaiter_eq hbackend w with heq | heq
  · rw [heq]
    exact ⟨fates', d', h'⟩
  · rw [heq]
    exact ⟨fates', d', h'.waits⟩

/-- Those who wait may try again, one after another. -/
theorem books_retryAll (rest : List Ring.Waiter)
    (h : Books fates calls st (rest ++ l.waiters) l d) :
    ∃ fates' d', Books fates' calls st (rest.foldl retryWaiter l).waiters
      (rest.foldl retryWaiter l) d' := by
  induction rest generalizing fates l d with
  | nil => exact ⟨fates, d, h⟩
  | cons w rest ih =>
      obtain ⟨fates', d', h'⟩ := books_retryWaiter rest h
      exact ih h'

theorem books_retryWaiters (h : Books fates calls st l.waiters l d) :
    ∃ fates' d', Books fates' calls st l.retryWaiters.waiters l.retryWaiters d' := by
  have h₀ : Books fates calls st (l.waiters ++ []) { l with waiters := [] } d := by
    rw [List.append_nil]
    exact { h with }
  exact books_retryAll (l := { l with waiters := [] }) l.waiters h₀

theorem books_retryAt (i : Nat) (h : Books fates calls st l.waiters l d) :
    ∃ fates' d', Books fates' calls st (l.retryAt i).waiters (l.retryAt i) d' := by
  unfold retryAt
  cases hw : l.waiters[i]? with
  | none => exact ⟨fates, d, h⟩
  | some w =>
      obtain ⟨hi, hget⟩ := List.getElem?_eq_some_iff.1 hw
      have hperm : (w :: ([] ++ l.waiters.eraseIdx i)).Perm l.waiters :=
        hget ▸ List.getElem_cons_eraseIdx_perm hi
      obtain ⟨l₁, hl₁⟩ : ∃ l₁, l₁ = { l with waiters := l.waiters.eraseIdx i } := ⟨_, rfl⟩
      have h₁ : Books fates calls st (w :: ([] ++ l₁.waiters)) l₁ d := by
        rw [hl₁]
        exact { h.perm hperm with }
      rw [← hl₁]
      exact books_retryWaiter [] h₁

-- ========================================================== each method

/-- A call that is admitted has its event published, or is rejected, or waits. -/
theorem books_publishAsync {set : AppenderSet α} {round : Option (Round α)}
    (h : Books fates calls st l.waiters l d) (hbackend : l.backend = .async d set round)
    (v : EventValues) :
    ∃ fates' d', Books fates' (calls + 1) st (publishAsync v d set round l).waiters
      (publishAsync v d set round l) d' := by
  cases hring : d.ring.reserve with
  | none =>
      unfold publishAsync
      rw [hring]
      exact ⟨fates, d, h.turnedAway (.inr rfl)⟩
  | some o =>
      obtain ⟨seq, ring⟩ := o
      obtain ⟨answered, hq, hcalls⟩ := h.squares
      obtain ⟨hseq, hq₁⟩ := Dispatcher.squares_reserve hq hring
      obtain ⟨l₁, hl₁⟩ : ∃ l₁, l₁ = l.onDispatcher ({ · with ring }) := ⟨_, rfl⟩
      rw [publishAsync_eq hbackend hring, ← hl₁]
      have hl₁' : l₁ = { l with backend := .async { d with ring } set round } := by
        rw [hl₁]
        unfold onDispatcher
        rw [hbackend]
      have h₁ : Books (fates ++ [.reserved]) (calls + 1) st (⟨seq, v⟩ :: ([] ++ l₁.waiters)) l₁
          { d with ring } := by
        rw [hl₁', hseq]
        exact ⟨⟨set, round, rfl⟩, h.standing_eq,
          ⟨answered, hq₁, by rw [← hcalls]; rfl⟩, h.awaited.draw v⟩
      exact books_heard [] h₁

/-- A logging call adds one to what is accounted for. -/
theorem books_make (h : Books fates calls st l.waiters l d) (c : LoggingCall) (site : Site S) :
    ∃ fates' d', Books fates' (calls + 1) st (l.make ops c site).1.waiters
      (l.make ops c site).1 d' := by
  obtain ⟨q, v, hmake⟩ := make_eq ops c l site
  obtain ⟨set, round, hbackend⟩ := h.backend_eq
  rw [hmake]
  unfold submit
  split
  · cases haccepting : l.accepting with
    | false =>
        unfold publish
        rw [haccepting]
        exact ⟨fates, d, h.turnedAway (.inr rfl)⟩
    | true =>
        rw [publish_async haccepting hbackend]
        exact books_publishAsync h hbackend v
  · exact ⟨fates, d, h.turnedAway (.inl rfl)⟩

/-- Until nothing moves any more the books are kept. -/
theorem books_settleFor (fuel : Nat) (site : Site S) (h : Books fates calls st l.waiters l d) :
    ∃ fates' d', Books fates' calls st (settleFor ops fuel l site).1.waiters
      (settleFor ops fuel l site).1 d' := by
  induction fuel generalizing fates l d site with
  | zero =>
      obtain ⟨d₁, h₁, hwaiters⟩ := books_runDispatcher ops h site
      exact ⟨fates, d₁, hwaiters ▸ h₁⟩
  | succ fuel ih =>
      obtain ⟨d₁, h₁, hwaiters⟩ := books_runDispatcher ops h site
      rw [← hwaiters] at h₁
      obtain ⟨fates₂, d₂, h₂⟩ := books_retryWaiters h₁
      unfold settleFor
      dsimp only
      split
      · exact ih _ h₂
      · exact ⟨fates₂, d₂, h₂⟩

/-- A logger settles with its books in order. -/
theorem books_settle (ops : AppenderOps α S) (h : Books fates calls st l.waiters l d)
    (site : Site S) :
    ∃ fates' d', Books fates' calls st (l.settle ops site).1.waiters (l.settle ops site).1 d' :=
  books_settleFor l.waiters.length site h

theorem books_flushAsync (h : Books fates calls st l.waiters l d) (site : Site S) :
    ∃ fates' d', Books fates' calls st (flushAsync ops d l site).2.1.waiters
      (flushAsync ops d l site).2.1 d' := by
  obtain ⟨fates₁, d₁, h₁⟩ := books_settle ops h site
  obtain ⟨⟨l₁, site₁⟩, ho₁⟩ : ∃ o, o = l.settle ops site := ⟨_, rfl⟩
  rw [← ho₁] at h₁
  dsimp only at h₁
  have hnow : l₁.dispatcher?.getD d = d₁ := by
    rw [h₁.dispatcher_eq, Option.getD_some]
  -- the ticket is taken from the dispatcher as it stands then
  obtain ⟨hasked, hwaiters⟩ := books_onDispatcher h₁ (fun _ => d₁.requestFlush.2)
    fun answered hq => hq.requestFlush
  have hst : ({ st with attached := d₁.requestFlush.2.attached } : Standing) = st := by
    rw [← h₁.standing_eq]
    rfl
  rw [hst, ← hwaiters] at hasked
  obtain ⟨fates₂, d₂, h₂⟩ := books_settle ops hasked site₁
  unfold flushAsync
  dsimp only
  rw [← ho₁]
  dsimp only
  rw [hnow]
  split
  · split <;> exact ⟨fates₁, d₁, h₁⟩
  · split
    · exact ⟨fates₁, d₁, h₁⟩
    · split
      · exact ⟨fates₂, d₂, h₂⟩
      · split <;> exact ⟨fates₂, d₂, h₂⟩

/-- A stop that is clean has seen the dispatcher finish and leave nothing
behind. -/
theorem books_stopAsync (timeout : Nat) (h : Books fates calls st l.waiters l d) (site : Site S) :
    ∃ fates' d', Books fates' calls { st with attached := false }
        (stopAsync ops timeout l site).2.1.waiters (stopAsync ops timeout l site).2.1 d'
      ∧ ((stopAsync ops timeout l site).1 = true →
        d'.isFinished = true ∧ d'.abandoned = 0) := by
  obtain ⟨hstop, hwaiters⟩ := books_onDispatcher h Dispatcher.requestStop
    fun answered hq => hq.requestStop
  rw [← hwaiters] at hstop
  obtain ⟨fates₁, d₁, h₁⟩ := books_settle ops hstop site
  obtain ⟨o₁, ho₁⟩ : ∃ o₁, o₁ = (l.onDispatcher Dispatcher.requestStop).settle ops site :=
    ⟨_, rfl⟩
  rw [← ho₁] at h₁
  -- the deadline passes only if the dispatcher rests before it has finished
  obtain ⟨o₂, ho₂⟩ : ∃ o₂, o₂ = if o₁.1.dispatcher?.any Dispatcher.isFinished then o₁
    else (o₁.1.onDispatcher Dispatcher.expire).settle ops o₁.2 := ⟨_, rfl⟩
  obtain ⟨fates₂, d₂, h₂⟩ : ∃ fates₂ d₂,
      Books fates₂ calls { st with attached := false } o₂.1.waiters o₂.1 d₂ := by
    rw [ho₂]
    split
    · exact ⟨fates₁, d₁, h₁⟩
    · obtain ⟨hexpire, hwaiters₁⟩ := books_onDispatcher h₁ Dispatcher.expire
        fun answered hq => hq.expire
      have hattached : d₁.expire.attached = false := congrArg Standing.attached h₁.standing_eq
      rw [← hwaiters₁, hattached] at hexpire
      exact books_settle ops hexpire o₁.2
  have hresult : stopAsync ops timeout l site
      = let o := d₂.stopResult timeout (⟨o₂.1.metrics, o₂.2.status, ()⟩ : Shared Unit)
        (o.1, o₂.1, { o₂.2 with status := o.2.status }) := by
    unfold stopAsync
    dsimp only
    rw [← ho₁]
    obtain ⟨l₁, site₁⟩ := o₁
    dsimp only at ho₂ ⊢
    rw [← ho₂, h₂.dispatcher_eq]
  rw [hresult]
  refine ⟨fates₂, d₂, h₂, fun hclean => ?_⟩
  dsimp only at hclean
  unfold Dispatcher.stopResult at hclean
  split at hclean
  · next hfinished => exact ⟨hfinished, of_decide_eq_true hclean⟩
  · cases hclean

/-- The first shutdown. -/
theorem books_shutdown (ops : AppenderOps α S) (timeout : Nat) {clean : Bool}
    (h : Books fates calls ⟨true, true, clean⟩ l.waiters l d) (site : Site S) :
    ∃ fates' d', Books fates' calls ⟨false, false, (l.shutdown ops timeout site).1⟩
        (l.shutdown ops timeout site).2.1.waiters (l.shutdown ops timeout site).2.1 d'
      ∧ ((l.shutdown ops timeout site).1 = true →
        d'.isFinished = true ∧ d'.abandoned = 0) := by
  obtain ⟨set, round, hbackend⟩ := h.backend_eq
  have haccepting : l.accepting = true := congrArg Standing.accepting h.standing_eq
  have hattached : d.attached = true := congrArg Standing.attached h.standing_eq
  have h₀ : Books fates calls ⟨true, false, clean⟩ l.waiters { l with accepting := false } d := by
    have hclean : l.cleanShutdown = clean := congrArg Standing.cleanShutdown h.standing_eq
    refine ⟨h.backend_eq, ?_, h.squares, h.awaited⟩
    rw [hattached, ← hclean]
  obtain ⟨fates', d', h', hdone⟩ :=
    books_stopAsync (l := { l with accepting := false }) timeout h₀ site
  have hshutdown : l.shutdown ops timeout site
      = let o := stopAsync ops timeout { l with accepting := false } site
        (o.1, { o.2.1 with cleanShutdown := o.1 }, o.2.2) := by
    unfold shutdown
    dsimp only
    rw [haccepting, hbackend]
    dsimp only
    rw [hattached]
    rfl
  rw [hshutdown]
  refine ⟨fates', d', ⟨h'.backend_eq, ?_, h'.squares, h'.awaited⟩, hdone⟩
  have hattached' : d'.attached = false := congrArg Standing.attached h'.standing_eq
  have haccepting' := congrArg Standing.accepting h'.standing_eq
  dsimp only at haccepting' ⊢
  rw [hattached', haccepting']

-- ========================================================== each move

namespace Direct

/-- A shutdown gives the appenders up, and counts nothing. -/
theorem shutdown (h : l.Direct calls) (ops : AppenderOps α S) (timeout : Nat) (site : Site S) :
    (l.shutdown ops timeout site).2.1.Direct calls
      ∧ (l.shutdown ops timeout site).2.1.accepting = false := by
  unfold Logger.shutdown
  cases haccepting : l.accepting with
  | false => exact ⟨h, haccepting⟩
  | true =>
      obtain ⟨work, hbackend, -⟩ := h.backend_eq
      have hstopped : ∀ clean : Bool, Direct calls
          ({ l with accepting := false, backend := .sync none, cleanShutdown := clean } :
            Logger α) :=
        fun clean => { h with backend_eq := ⟨none, rfl, fun _ => rfl⟩ }
      rw [hbackend]
      rcases work with _ | ⟨slot, set⟩
      · exact ⟨hstopped true, rfl⟩
      · exact ⟨hstopped _, rfl⟩

/-- Between its calls nothing happens to a synchronous logger. -/
theorem act_of_idle (h : l.Direct calls) {move : LoggerMove S} (hlog : move.isLog = false)
    (hshutdown : ∀ timeout, move ≠ .shutdown timeout) : (l.act ops move site).1 = l := by
  obtain ⟨work, hbackend, -⟩ := h.backend_eq
  cases move with
  | log c | overtaken c => cases hlog
  | shutdown timeout => exact absurd rfl (hshutdown timeout)
  | flush =>
      show (l.flush ops site).2.1 = l
      unfold flush
      rw [hbackend]
      rcases work with _ | ⟨slot, set⟩ <;> rfl
  | settle =>
      show (l.settle ops site).1 = l
      obtain ⟨n, hn⟩ := settle_of_nobody ops h.waiters_eq site
      rw [hn, h.dispatch]
  | dispatch n => exact congrArg Prod.fst (h.dispatch n)
  | retry i =>
      show l.retryAt i = l
      unfold retryAt
      rw [h.waiters_eq]
      rfl
  | outside f => rfl

end Direct

/-- Each move keeps the counters of a synchronous logger, and its appenders
once they are given up. -/
theorem direct_act (ops : AppenderOps α S) (h : l.Direct calls) (move : LoggerMove S)
    (site : Site S) :
    (l.act ops move site).1.Direct (calls + if move.isLog then 1 else 0)
      ∧ (l.accepting = false → (l.act ops move site).1.accepting = false) := by
  by_cases hshut : l.accepting = false
  · obtain ⟨k, hk, hact⟩ := over_act ops (h.isOver hshut) move site
    rw [hact]
    cases move.isLog with
    | true => exact ⟨h.turnedAway hk, fun _ => hshut⟩
    | false => exact ⟨h, fun _ => hshut⟩
  · refine ⟨?_, fun hfalse => absurd hfalse hshut⟩
    cases move with
    | log c => exact h.make c
    | overtaken c =>
        rw [overtaken_eq_log (eq_true_of_ne_false hshut)]
        exact h.make c
    | shutdown timeout => exact (h.shutdown ops timeout site).1
    | flush | settle | dispatch n | retry i | outside f =>
        rw [h.act_of_idle rfl fun timeout heq => by cases heq]
        exact h

/-- What is said of an asynchronous logger between moves: once a shutdown has
been clean, the dispatcher has finished and left nothing behind. -/
structure Booked (calls : Nat) (l : Logger α) : Prop where
  books : ∃ fates d, Books fates calls ⟨l.accepting, l.accepting, l.cleanShutdown⟩ l.waiters l d
    ∧ (l.accepting = false → l.cleanShutdown = true → d.isFinished = true ∧ d.abandoned = 0)

namespace Booked

theorem all_counted (h : l.Booked calls) :
    l.metrics.filtered + l.metrics.rejected + l.metrics.published + l.waiters.length = calls := by
  obtain ⟨fates, d, hb, -⟩ := h.books
  obtain ⟨answered, hq, hcalls⟩ := hb.squares
  rw [hq.answered_eq]
  exact hcalls

/-- Where nothing is clean, there is nothing to say of the dispatcher. -/
theorem of_books {shut clean : Bool} (h : Books fates calls ⟨shut, shut, clean⟩ l.waiters l d)
    (hopen : shut = false → clean = false) : l.Booked calls := by
  obtain ⟨haccepting, hclean⟩ : l.accepting = shut ∧ l.cleanShutdown = clean :=
    ⟨congrArg Standing.accepting h.standing_eq, congrArg Standing.cleanShutdown h.standing_eq⟩
  refine ⟨fates, d, ?_, fun hshut hdone => ?_⟩
  · rw [haccepting, hclean]
    exact h
  · rw [← hclean, hdone] at hopen
    cases hopen (haccepting.symm.trans hshut)

/-- A clean shutdown leaves nobody waiting, and all that was published
delivered or failed. -/
theorem balanced (h : l.Booked calls) (hshut : l.accepting = false)
    (hclean : l.cleanShutdown = true) :
    l.Over ∧ l.metrics.published = l.metrics.delivered + l.metrics.failures := by
  obtain ⟨fates, d, hb, hdone⟩ := h.books
  obtain ⟨hfinished, habandoned⟩ := hdone hshut hclean
  obtain ⟨set, round, hbackend⟩ := hb.backend_eq
  obtain ⟨hnobody, hbalanced⟩ := hb.balanced hfinished habandoned
  exact ⟨⟨hshut, hnobody, .inr ⟨d, set, round, hbackend, hfinished, hb.closed hfinished⟩⟩,
    hbalanced⟩

theorem turnedAway (h : l.Booked calls) {k : Counter} (hk : k = .filtered ∨ k = .rejected) :
    (l.count k).Booked (calls + 1) := by
  obtain ⟨fates, d, hb, hdone⟩ := h.books
  exact ⟨fates, d, hb.turnedAway hk, hdone⟩

/-- A shutdown answers no call, and says what it has come to. -/
theorem shutdown (h : l.Booked calls) (ops : AppenderOps α S) (timeout : Nat) (site : Site S) :
    (l.shutdown ops timeout site).2.1.Booked calls
      ∧ (l.shutdown ops timeout site).2.1.accepting = false
      ∧ (l.shutdown ops timeout site).2.1.cleanShutdown = (l.shutdown ops timeout site).1 := by
  obtain ⟨fates, d, hb, hdone⟩ := h.books
  cases haccepting : l.accepting with
  | false =>
      have hsame : l.shutdown ops timeout site = (l.cleanShutdown, l, site) := by
        unfold Logger.shutdown
        rw [haccepting]
        rfl
      rw [hsame]
      exact ⟨h, haccepting, rfl⟩
  | true =>
      rw [haccepting] at hb
      obtain ⟨fates', d', hb', hdone'⟩ := books_shutdown ops timeout hb site
      have hshut : (l.shutdown ops timeout site).2.1.accepting = false :=
        congrArg Standing.accepting hb'.standing_eq
      have hclean : (l.shutdown ops timeout site).2.1.cleanShutdown
          = (l.shutdown ops timeout site).1 :=
        congrArg Standing.cleanShutdown hb'.standing_eq
      refine ⟨⟨fates', d', ?_, fun _ hc => hdone' (hclean.symm.trans hc)⟩, hshut, hclean⟩
      rw [hshut, hclean]
      exact hb'

end Booked

/-- A call that was overtaken goes by what it found, and leaves no trace of it. -/
theorem books_overtaken (h : Books fates calls st l.waiters l d) (c : LoggingCall)
    (site : Site S) :
    ∃ fates' d', Books fates' (calls + 1) st (l.act ops (.overtaken c) site).1.waiters
      (l.act ops (.overtaken c) site).1 d' := by
  have h₀ : Books fates calls { st with accepting := true } l.waiters
      { l with accepting := true } d := by
    refine ⟨h.backend_eq, ?_, h.squares, h.awaited⟩
    rw [← h.standing_eq]
  obtain ⟨fates', d', h'⟩ := books_make (l := { l with accepting := true }) h₀ c site
  refine ⟨fates', d', h'.backend_eq, ?_, h'.squares, h'.awaited⟩
  have hattached : d'.attached = st.attached := congrArg Standing.attached h'.standing_eq
  have hclean : (l.act ops (.overtaken c) site).1.cleanShutdown = st.cleanShutdown :=
    congrArg Standing.cleanShutdown h'.standing_eq
  have haccepting : (l.act ops (.overtaken c) site).1.accepting = st.accepting :=
    congrArg Standing.accepting h.standing_eq
  rw [hattached, hclean, haccepting]

/-- Each move keeps the books of an asynchronous logger. -/
theorem booked_act (ops : AppenderOps α S) (h : l.Booked calls) (move : LoggerMove S)
    (site : Site S) :
    (l.act ops move site).1.Booked (calls + if move.isLog then 1 else 0)
      ∧ (l.accepting = false → (l.act ops move site).1.accepting = false) := by
  by_cases hdone : l.accepting = false ∧ l.cleanShutdown = true
  · obtain ⟨hover, -⟩ := h.balanced hdone.1 hdone.2
    obtain ⟨k, hk, hact⟩ := over_act ops hover move site
    rw [hact]
    cases move.isLog with
    | true => exact ⟨h.turnedAway hk, fun hshut => hshut⟩
    | false => exact ⟨h, fun hshut => hshut⟩
  · obtain ⟨fates, d, hb, -⟩ := h.books
    obtain ⟨set, round, hbackend⟩ := hb.backend_eq
    have hopen : l.accepting = false → l.cleanShutdown = false := fun hshut =>
      Bool.eq_false_iff.2 fun hclean => hdone ⟨hshut, hclean⟩
    -- all moves but a shutdown leave the logger's standing alone
    have hkept : ∀ {calls' : Nat} {l' : Logger α},
        (∃ fates' d', Books fates' calls' ⟨l.accepting, l.accepting, l.cleanShutdown⟩
          l'.waiters l' d') →
        l'.Booked calls' ∧ (l.accepting = false → l'.accepting = false) := by
      intro calls' l' hb'
      obtain ⟨fates', d', hb'⟩ := hb'
      exact ⟨.of_books hb' hopen,
        fun hshut => (congrArg Standing.accepting hb'.standing_eq).trans hshut⟩
    cases move with
    | log c => exact hkept (books_make hb c site)
    | overtaken c => exact hkept (books_overtaken hb c site)
    | flush =>
        have hflush : (l.act ops .flush site).1 = (flushAsync ops d l site).2.1 := by
          show (l.flush ops site).2.1 = _
          unfold flush
          rw [hbackend]
        rw [hflush]
        exact hkept (books_flushAsync hb site)
    | shutdown timeout =>
        obtain ⟨hbooked, hshut, -⟩ := h.shutdown ops timeout site
        exact ⟨hbooked, fun _ => hshut⟩
    | settle => exact hkept (books_settle ops hb site)
    | dispatch n =>
        obtain ⟨d', hb', hwaiters⟩ := books_dispatch ops hb n site
        exact hkept ⟨fates, d', hwaiters ▸ hb'⟩
    | retry i => exact hkept (books_retryAt i hb)
    | outside f => exact hkept ⟨fates, d, hb⟩

-- ========================================================== whole runs

/-- Whatever is done to a synchronous logger, its counters count all the
calls. -/
theorem direct_actAll (ops : AppenderOps α S) (moves : List (LoggerMove S)) (h : l.Direct calls)
    (site : Site S) :
    (l.actAll ops moves site).1.Direct (calls + LoggerMove.calls moves)
      ∧ (l.accepting = false → (l.actAll ops moves site).1.accepting = false) := by
  refine actAll_keeps (P := fun n l' => l'.Direct n ∧ (l.accepting = false → l'.accepting = false))
    (fun n l' move site h' => ?_) moves ⟨h, id⟩ site
  obtain ⟨hdirect, hshut⟩ := direct_act ops h'.1 move site
  exact ⟨hdirect, fun hfalse => hshut (h'.2 hfalse)⟩

/-- And so do those of any logger. -/
theorem booked_actAll (ops : AppenderOps α S) (moves : List (LoggerMove S)) (h : l.Booked calls)
    (site : Site S) :
    (l.actAll ops moves site).1.Booked (calls + LoggerMove.calls moves)
      ∧ (l.accepting = false → (l.actAll ops moves site).1.accepting = false) := by
  refine actAll_keeps (P := fun n l' => l'.Booked n ∧ (l.accepting = false → l'.accepting = false))
    (fun n l' move site h' => ?_) moves ⟨h, id⟩ site
  obtain ⟨hbooked, hshut⟩ := booked_act ops h'.1 move site
  exact ⟨hbooked, fun hfalse => hshut (h'.2 hfalse)⟩

theorem exists_of_bind_ok {ε β γ : Type} {x : Except ε β} {f : β → Except ε γ} {c : γ}
    (h : (x >>= f) = .ok c) : ∃ b, x = .ok b ∧ f b = .ok c := by
  cases x with
  | error e => cases h
  | ok b => exact ⟨b, rfl, h⟩

/-- An asynchronous logger starts with a dispatcher on a new ring. -/
theorem startBackend_async {env : Dict String} {parts : LoggerParts α} {backend : Backend α}
    (hmode : parts.mode = .async) (hbackend : startBackend env parts = .ok backend) :
    ∃ size, backend = .async (.onNewRing size) ⟨parts.appenders⟩ none := by
  unfold startBackend at hbackend
  rw [hmode] at hbackend
  obtain ⟨size, -, hcreated⟩ := exists_of_bind_ok hbackend
  obtain ⟨ring, hring, hstarted⟩ := exists_of_bind_ok hcreated
  refine ⟨size, ?_⟩
  unfold Ring.create at hring
  split at hring
  · cases hring
  · cases hring
    rw [Dispatcher.start_ofSize] at hstarted
    exact (Except.ok.inj hstarted).symm

/-- A logger that was built is fresh. -/
theorem fresh_of_build {env : Dict String} {parts : LoggerParts α} {site₀ : Site S}
    (hbuild : build ops env parts site₀ = (.ok l, site)) :
    ∃ backend, startBackend env parts = .ok backend ∧ l = fresh (settingsOf env parts) backend := by
  unfold build at hbuild
  dsimp only at hbuild
  split at hbuild
  · next backend hbackend =>
    cases hbuild
    exact ⟨backend, hbackend, rfl⟩
  · cases hbuild

/-- A logger that has just been built is new, and so is its ring, if it has one. -/
theorem build_eq_ok {env : Dict String} {parts : LoggerParts α} {site₀ : Site S}
    (hbuild : build ops env parts site₀ = (.ok l, site)) :
    (parts.mode = .sync ∧ l.Direct 0) ∨ (parts.mode = .async ∧ l.Booked 0) := by
  obtain ⟨backend, hbackend, rfl⟩ := fresh_of_build hbuild
  cases hmode : parts.mode with
  | sync =>
      unfold startBackend at hbackend
      rw [hmode] at hbackend
      cases hbackend
      exact .inl ⟨rfl, rfl, rfl, rfl, rfl, _, rfl, fun hshut => by cases hshut⟩
  | async =>
      obtain ⟨size, rfl⟩ := startBackend_async hmode hbackend
      exact .inr ⟨rfl, [], _, books_start _ size _, fun hshut => by cases hshut⟩

/-- Build a logger from any parts, and let anything happen to it. Then every
logging call is counted as filtered, rejected or published, once, or its
caller waits for room. A synchronous logger lets nobody wait, and has
delivered or failed to deliver all that it has published, each event as
the end of its batch. Once a logger is shut down, in either mode, a
logging call is counted as filtered or rejected and does nothing else.
After a clean shutdown of an asynchronous logger, and after any of a
synchronous one, nobody waits, all that was published is delivered or
failed, and whatever happens to the logger, only what others do reaches
the appenders. -/
theorem calls_accounted (ops : AppenderOps α S) (env : Dict String) (parts : LoggerParts α)
    (site₀ site : Site S) (l : Logger α) (hbuild : build ops env parts site₀ = (.ok l, site))
    (moves : List (LoggerMove S)) :
    let o := l.actAll ops moves site
    let m := o.1.metrics
    m.filtered + m.rejected + m.published + o.1.waiters.length = LoggerMove.calls moves
      ∧ (parts.mode = .sync → o.1.waiters = []
        ∧ m.published = m.delivered + m.failures ∧ m.published = m.endOfBatch)
      ∧ ∀ (timeout : Nat) (later : List (LoggerMove S)),
        let stop := o.1.shutdown ops timeout o.2
        let o' := stop.2.1.actAll ops later stop.2.2
        let m' := o'.1.metrics
        (∀ c : LoggingCall, ∃ k, (k = .filtered ∨ k = .rejected)
          ∧ o'.1.make ops c o'.2 = (o'.1.count k, o'.2))
        ∧ (parts.mode = .sync ∨ stop.1 = true →
          m'.filtered + m'.rejected + m'.published = LoggerMove.calls moves + LoggerMove.calls later
          ∧ m'.published = m'.delivered + m'.failures
          ∧ ∀ move : LoggerMove S, ∃ k, (k = .filtered ∨ k = .rejected)
            ∧ o'.1.act ops move o'.2
              = (if move.isLog then o'.1.count k else o'.1, move.elsewhere o'.2)) := by
  intro o m
  rcases build_eq_ok hbuild with ⟨hmode, hstart⟩ | ⟨hmode, hstart⟩
  · obtain ⟨hdirect, -⟩ := direct_actAll ops moves hstart site
    rw [Nat.zero_add] at hdirect
    refine ⟨hdirect.all_counted, fun _ => ?_, ?_⟩
    · exact ⟨hdirect.waiters_eq, hdirect.delivered_eq, hdirect.endOfBatch_eq⟩
    · intro timeout later stop o' m'
      obtain ⟨hstopped, hshut⟩ := hdirect.shutdown ops timeout o.2
      obtain ⟨hdirect', hshut'⟩ := direct_actAll ops later hstopped stop.2.2
      refine ⟨make_of_not_accepting (hshut' hshut), fun _ => ?_⟩
      exact ⟨hdirect'.answered_eq, hdirect'.delivered_eq,
        fun move => over_act ops (hdirect'.isOver (hshut' hshut)) move o'.2⟩
  · obtain ⟨hbooked, -⟩ := booked_actAll ops moves hstart site
    rw [Nat.zero_add] at hbooked
    have hasync : parts.mode ≠ .sync := by
      rw [hmode]
      exact fun hsync => by cases hsync
    refine ⟨hbooked.all_counted, fun hsync => absurd hsync hasync, ?_⟩
    intro timeout later stop o' m'
    obtain ⟨hstopped, hshut, hclean⟩ := hbooked.shutdown ops timeout o.2
    obtain ⟨hbooked', hshut'⟩ := booked_actAll ops later hstopped stop.2.2
    refine ⟨make_of_not_accepting (hshut' hshut), fun hdone => ?_⟩
    -- a clean shutdown is one that stays clean
    have hstop : stop.1 = true := hdone.resolve_left hasync
    obtain ⟨hover, -⟩ := hstopped.balanced hshut (hclean.trans hstop)
    obtain ⟨filtered, rejected, hlater⟩ := over_actAll ops later hover stop.2.2
    have hclean' : o'.1.cleanShutdown = true := by
      rw [show o'.1 = _ from hlater]
      exact hclean.trans hstop
    obtain ⟨hover', hbalanced⟩ := hbooked'.balanced (hshut' hshut) hclean'
    have hcounted := hbooked'.all_counted
    rw [hover'.waiters_eq] at hcounted
    exact ⟨hcounted, hbalanced, fun move => over_act ops hover' move o'.2⟩

end Logger

namespace Logger.Rush

/-- An appender that panics at every event. -/
def panicking : AppenderOps Unit Unit := Samples.appender "panicking" fun c s =>
  (match c with
    | .append .. => .panicked "boom"
    | .flush | .stop => .done, s)

def parts : LoggerParts Unit := Samples.parts .async [] [()]

def logger : Logger Unit := Samples.asynchronous [] [()]

def site : Site Unit := Samples.site ()

/-- Three calls on a ring for two: the last caller has to wait. -/
def moves : List (LoggerMove Unit) := [.log (.ofText "a"), .log (.ofText "b"), .log (.ofText "c")]

end Logger.Rush

open Logger.Rush in
theorem Logger.calls_accounted_sample :
    let o := logger.actAll panicking moves site
    let stop := o.1.shutdown panicking 0 o.2
    let o' := stop.2.1.actAll panicking [.log (.ofText "late")] stop.2.2
    build panicking .empty parts site = (.ok logger, site)
      ∧ o.1.metrics.filtered + o.1.metrics.rejected + o.1.metrics.published
        + o.1.waiters.length = 3
      ∧ o.1.waiters.length = 1
      ∧ o'.1.metrics.filtered + o'.1.metrics.rejected + o'.1.metrics.published = 4
      ∧ o'.1.metrics.published = o'.1.metrics.delivered + o'.1.metrics.failures := by
  intro o stop o'
  have hbuild : build panicking .empty parts site = (.ok logger, site) :=
    Samples.build_parts panicking .async [] [()] site
  obtain ⟨hcalls, -, hshut⟩ := calls_accounted panicking .empty parts site site logger hbuild moves
  have hclean : stop.1 = true := by decide +kernel
  obtain ⟨hcalls', hbalanced, -⟩ := (hshut 0 [.log (.ofText "late")]).2 (.inr hclean)
  exact ⟨hbuild, hcalls, by decide +kernel, hcalls', hbalanced⟩

end LogPipeline
