/-
What happens to a logger, one thing after another. A run of a logger is a
list of moves (`LoggerMove`). Beside the calls of its methods there is
what happens between them: the dispatcher takes some steps, a caller that
waits for room asks again, appenders are held up and let go on by others.
A call may also be overtaken by a shutdown, after it has found the logger
accepting.

A logger that is `Over` has been shut down, has nobody waiting and no
dispatcher at work. From then on a move can do no more than count a call
as filtered or rejected (`over_act`).
-/
import LogPipeline.Logger.Basic
import LogPipeline.Proofs.Dispatcher.Rest
import LogPipeline.Proofs.Samples

namespace LogPipeline

-- =============================================================== moves

/-- A logging call, with what its thread brings along. -/
inductive LoggingCall where
  | message (caller : Caller) (level : Level) (marker : Option Marker) (message : Message)
      (thrown : Option Thrown)
  | pattern (caller : Caller) (level : Level) (marker : Option Marker) (text : String)
      (params : List String)

/-- A call that logs this text and nothing else. -/
def LoggingCall.ofText (text : String) : LoggingCall :=
  .message Samples.caller .info none (.simple text) none

/-- What happens to a logger. -/
inductive LoggerMove (S : Type) where
  | log (c : LoggingCall)
  /-- A call goes on that found the logger accepting, whatever has come since. -/
  | overtaken (c : LoggingCall)
  | flush
  | shutdown (timeout : Nat)
  /-- Time passes, until all rest. -/
  | settle
  /-- The dispatcher takes so many steps, if it can. -/
  | dispatch (n : Nat)
  /-- The caller asks again who is the next but so many of those that wait. -/
  | retry (i : Nat)
  /-- Others write to the status log, or change what the appenders act on. -/
  | outside (f : Site S → Site S)

namespace LoggerMove

variable {S : Type}

def isLog : LoggerMove S → Bool
  | log _ | overtaken _ => true
  | _ => false

/-- How many logging calls there are. -/
def calls (moves : List (LoggerMove S)) : Nat := moves.countP isLog

/-- What others do to the site. -/
def elsewhere (site : Site S) : LoggerMove S → Site S
  | outside f => f site
  | _ => site

end LoggerMove

namespace Logger

variable {α S : Type}

/-- Make a logging call. -/
def make (ops : AppenderOps α S) (c : LoggingCall) (l : Logger α) (site : Site S) :
    Logger α × Site S :=
  match c with
  | .message caller level marker message thrown =>
      l.log ops caller level marker message thrown site
  | .pattern caller level marker text params =>
      l.logParams ops caller level marker text params site

/-- At most so many steps of the dispatcher. -/
def dispatch (ops : AppenderOps α S) (n : Nat) (l : Logger α) (site : Site S) :
    Logger α × Site S :=
  match l.backend with
  | .sync _ => (l, site)
  | .async d set round =>
    let (d, s) := d.settleFor (Crew.handler ops) n
      ⟨l.metrics, site.status, ⟨set, round, site.world⟩⟩
    ({ l with metrics := s.metrics, backend := .async d s.handler.set s.handler.round },
      ⟨s.status, s.handler.world⟩)

/-- Let the caller with this number ask again. -/
def retryAt (i : Nat) (l : Logger α) : Logger α :=
  match l.waiters[i]? with
  | none => l
  | some w => { l with waiters := l.waiters.eraseIdx i }.retryWaiter w

/-- What a move makes of a logger and its site. -/
def act (ops : AppenderOps α S) (move : LoggerMove S) (l : Logger α) (site : Site S) :
    Logger α × Site S :=
  match move with
  | .log c => l.make ops c site
  | .overtaken c =>
      let (l', site) := { l with accepting := true }.make ops c site
      ({ l' with accepting := l.accepting }, site)
  | .flush => (l.flush ops site).2
  | .shutdown timeout => (l.shutdown ops timeout site).2
  | .settle => l.settle ops site
  | .dispatch n => l.dispatch ops n site
  | .retry i => (l.retryAt i, site)
  | .outside f => (l, f site)

/-- Moves, one after another. -/
def actAll (ops : AppenderOps α S) :
    List (LoggerMove S) → Logger α → Site S → Logger α × Site S
  | [], l, site => (l, site)
  | move :: rest, l, site =>
      let (l, site) := l.act ops move site
      actAll ops rest l site

variable {ops : AppenderOps α S} {l : Logger α} {site : Site S}

/-- What each move keeps, as calls are counted, holds along every run. -/
theorem actAll_keeps {P : Nat → Logger α → Prop} (hact : ∀ calls l move site, P calls l →
      P (calls + if move.isLog then 1 else 0) (l.act ops move site).1)
    (moves : List (LoggerMove S)) {calls : Nat} (h : P calls l) (site : Site S) :
    P (calls + LoggerMove.calls moves) (l.actAll ops moves site).1 := by
  induction moves generalizing calls l site with
  | nil => exact h
  | cons move rest ih =>
      have hsum : calls + LoggerMove.calls (move :: rest)
          = (calls + if move.isLog then 1 else 0) + LoggerMove.calls rest := by
        unfold LoggerMove.calls
        rw [List.countP_cons]
        omega
      rw [hsum]
      exact ih (hact calls l move site h) (l.act ops move site).2

/-- Any call for an event submits its values, with a question to the
filters. -/
theorem make_eq (ops : AppenderOps α S) (c : LoggingCall) (l : Logger α) (site : Site S) :
    ∃ q v, l.make ops c site = l.submit ops q v site := by
  cases c <;> exact ⟨_, _, rfl⟩

/-- To run the dispatcher is to give it some number of steps. -/
theorem runDispatcher_eq (ops : AppenderOps α S) (l : Logger α) (site : Site S) :
    ∃ n, l.runDispatcher ops site = l.dispatch ops n site := by
  unfold runDispatcher dispatch
  cases l.backend with
  | sync work => exact ⟨0, rfl⟩
  | async d set round => exact ⟨d.enough, rfl⟩

/-- Where nobody waits, to settle is a matter of the dispatcher alone. -/
theorem settle_of_nobody (ops : AppenderOps α S) (hwaiters : l.waiters = []) (site : Site S) :
    ∃ n, l.settle ops site = l.dispatch ops n site := by
  obtain ⟨n, hn⟩ := runDispatcher_eq ops l site
  refine ⟨n, Eq.trans ?_ hn⟩
  unfold settle
  rw [hwaiters]
  rfl

/-- An accepting logger with a dispatcher hands the values to its ring. -/
theorem publish_async {d : Dispatcher} {set : AppenderSet α} {round : Option (Round α)}
    (haccepting : l.accepting = true) (hbackend : l.backend = .async d set round)
    (v : EventValues) : l.publish ops v site = (publishAsync v d set round l, site) := by
  unfold publish
  rw [haccepting, hbackend]
  rfl

/-- An accepting logger without one serves its set at once. -/
theorem publish_sync {slot : EventSlot} {set : AppenderSet α} (haccepting : l.accepting = true)
    (hbackend : l.backend = .sync (some (slot, set))) (v : EventValues) :
    l.publish ops v site = publishSync ops v slot set l site := by
  unfold publish
  rw [haccepting, hbackend]
  rfl

/-- A logger that was stopped counts the call as rejected. -/
theorem publish_stopped (hbackend : l.backend = .sync none) (v : EventValues) :
    l.publish ops v site = (l.count .rejected, site) := by
  unfold publish
  rw [hbackend]
  split <;> rfl

/-- A logging call does not shut the logger down. -/
theorem accepting_make (c : LoggingCall) :
    (l.make ops c site).1.accepting = l.accepting := by
  obtain ⟨q, v, hmake⟩ := make_eq ops c l site
  rw [hmake]
  unfold submit publish
  split
  · split
    · rfl
    · split
      · unfold publishAsync
        split
        · rfl
        · split <;> rfl
      · rfl
      · rfl
  · rfl

/-- A call that was overtaken by nothing is a call. -/
theorem overtaken_eq_log (haccepting : l.accepting = true) (c : LoggingCall) :
    l.act ops (.overtaken c) site = l.act ops (.log c) site := by
  have hsame : ({ l with accepting := true } : Logger α) = l := by rw [← haccepting]
  have hkept : (l.make ops c site).1.accepting = l.accepting := accepting_make c
  show ({ ({ l with accepting := true }.make ops c site).1 with accepting := l.accepting },
    ({ l with accepting := true }.make ops c site).2) = l.make ops c site
  rw [hsame, ← hkept]

-- ================================================ calls after a shutdown

/-- A call on a logger that has been shut down is counted as filtered or
as rejected. -/
theorem make_of_not_accepting (hshut : l.accepting = false) (c : LoggingCall) :
    ∃ k, (k = .filtered ∨ k = .rejected) ∧ l.make ops c site = (l.count k, site) := by
  obtain ⟨q, v, hmake⟩ := make_eq ops c l site
  rw [hmake]
  unfold submit
  split
  · refine ⟨.rejected, .inr rfl, ?_⟩
    unfold publish
    rw [hshut]
    rfl
  · exact ⟨.filtered, .inl rfl, rfl⟩

/-- A logger that has been shut down and has nothing left to do. -/
structure Over (l : Logger α) : Prop where
  accepting_eq : l.accepting = false
  waiters_eq : l.waiters = []
  rests : l.backend = .sync none ∨ ∃ d set round, l.backend = .async d set round
    ∧ d.isFinished = true ∧ d.ring.closed = true

namespace Over

theorem count (h : l.Over) (k : Counter) : (l.count k).Over :=
  ⟨h.accepting_eq, h.waiters_eq, h.rests⟩

theorem dispatch (h : l.Over) (n : Nat) : l.dispatch ops n site = (l, site) := by
  unfold Logger.dispatch
  rcases h.rests with hbackend | ⟨d, set, round, hbackend, hfinished, -⟩
  · rw [hbackend]
  · have hrests : ∀ s, d.settleFor (Crew.handler ops) n s = (d, s) := by
      intro s
      cases n with
      | zero => rfl
      | succ n => rw [Dispatcher.settleFor, Dispatcher.step_finished hfinished]
    rw [hbackend]
    dsimp only
    rw [hrests, ← hbackend]

theorem settle (h : l.Over) : l.settle ops site = (l, site) := by
  obtain ⟨n, hn⟩ := settle_of_nobody ops h.waiters_eq site
  exact hn.trans (h.dispatch n)

theorem flush (h : l.Over) : (l.flush ops site).2 = (l, site) := by
  unfold Logger.flush
  rcases h.rests with hbackend | ⟨d, set, round, hbackend, hfinished, -⟩
  · rw [hbackend]
  · rw [hbackend]
    have hdispatcher : l.dispatcher?.getD d = d := by
      unfold dispatcher?
      rw [hbackend]
      rfl
    have hstopped : d.isRunning = false := by
      unfold Dispatcher.isRunning
      rw [hfinished, Bool.not_true, Bool.and_false]
    unfold flushAsync
    dsimp only
    rw [h.settle]
    dsimp only
    rw [hdispatcher, hstopped]
    split <;> rfl

/-- Even a call that was overtaken comes to nothing. -/
theorem overtaken (h : l.Over) (c : LoggingCall) :
    ∃ k, (k = .filtered ∨ k = .rejected)
      ∧ l.act ops (.overtaken c) site = (l.count k, site) := by
  obtain ⟨l₀, hl₀⟩ : ∃ l₀, l₀ = { l with accepting := true } := ⟨_, rfl⟩
  obtain ⟨q, v, hsubmit⟩ := make_eq ops c l₀ site
  have haccepting : l₀.accepting = true := by rw [hl₀]
  have hbackend₀ : l₀.backend = l.backend := by rw [hl₀]
  have hpublish : l₀.publish ops v site = (l₀.count .rejected, site) := by
    rcases h.rests with hbackend | ⟨d, set, round, hbackend, -, hclosed⟩
    · exact publish_stopped (hbackend₀.trans hbackend) v
    · rw [publish_async haccepting (hbackend₀.trans hbackend)]
      unfold publishAsync Ring.reserve
      rw [if_pos hclosed]
  obtain ⟨k, hk, hmake⟩ : ∃ k, (k = .filtered ∨ k = .rejected)
      ∧ l₀.make ops c site = (l₀.count k, site) := by
    rw [hsubmit]
    unfold submit
    split
    · exact ⟨.rejected, .inr rfl, hpublish⟩
    · exact ⟨.filtered, .inl rfl, rfl⟩
  refine ⟨k, hk, ?_⟩
  show ({ ({ l with accepting := true }.make ops c site).1 with accepting := l.accepting },
    ({ l with accepting := true }.make ops c site).2) = _
  rw [← hl₀, hmake, hl₀]
  rfl

end Over

/-- Whatever happens to a logger that is over, a call is counted as filtered
or as rejected, and nothing else is different but for what others do. -/
theorem over_act (ops : AppenderOps α S) (h : l.Over) (move : LoggerMove S) (site : Site S) :
    ∃ k, (k = .filtered ∨ k = .rejected) ∧
      l.act ops move site = (if move.isLog then l.count k else l, move.elsewhere site) := by
  cases move with
  | log c => exact make_of_not_accepting h.accepting_eq c
  | overtaken c => exact h.overtaken c
  | flush => exact ⟨.filtered, .inl rfl, h.flush⟩
  | shutdown timeout =>
      refine ⟨.filtered, .inl rfl, ?_⟩
      unfold act shutdown
      rw [h.accepting_eq]
      rfl
  | settle => exact ⟨.filtered, .inl rfl, h.settle⟩
  | dispatch n => exact ⟨.filtered, .inl rfl, h.dispatch n⟩
  | retry i =>
      refine ⟨.filtered, .inl rfl, ?_⟩
      unfold act retryAt
      rw [h.waiters_eq]
      rfl
  | outside f => exact ⟨.filtered, .inl rfl, rfl⟩

/-- However long it goes on, nothing is counted but calls that come to
nothing. -/
theorem over_actAll (ops : AppenderOps α S) (moves : List (LoggerMove S)) (h : l.Over)
    (site : Site S) :
    ∃ filtered rejected, (l.actAll ops moves site).1
      = { l with metrics := { l.metrics with filtered, rejected } } := by
  induction moves generalizing l site with
  | nil => exact ⟨l.metrics.filtered, l.metrics.rejected, rfl⟩
  | cons move rest ih =>
      obtain ⟨k, hk, hact⟩ := over_act ops h move site
      show ∃ filtered rejected,
        ((l.act ops move site).1.actAll ops rest (l.act ops move site).2).1 = _
      rw [hact]
      dsimp only
      split
      · obtain ⟨filtered, rejected, hrest⟩ := ih (h.count k) (move.elsewhere site)
        refine ⟨filtered, rejected, hrest.trans ?_⟩
        rcases hk with rfl | rfl <;> rfl
      · exact ih h (move.elsewhere site)

end Logger

end LogPipeline
